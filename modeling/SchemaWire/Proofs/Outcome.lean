/-! What it takes for a computation that may fail to succeed, and the errors it may fail with. -/

set_option autoImplicit false

namespace SchemaWire.Outcome

variable {ε α β : Type}

theorem ok_bind (a : α) (next : α → Except ε β) : (.ok a >>= next) = next a := rfl

theorem error_bind (error : ε) (next : α → Except ε β) : (.error error >>= next) = .error error :=
  rfl

theorem mapError_ok {ε' : Type} (a : α) (name : ε → ε') :
    (Except.ok a).mapError name = .ok a :=
  rfl

theorem mapError_error {ε' : Type} (error : ε) (name : ε → ε') :
    (Except.error error : Except ε α).mapError name = .error (name error) :=
  rfl

@[simp] theorem bind_eq_ok_iff {first : Except ε α} {next : α → Except ε β} {b : β} :
    (first >>= next) = .ok b ↔ ∃ a, first = .ok a ∧ next a = .ok b := by
  cases first <;> simp [bind, Except.bind]

@[simp] theorem pure_eq_ok_iff {a b : α} : (pure a : Except ε α) = .ok b ↔ a = b := by
  simp [pure, Except.pure]

@[simp] theorem map_eq_ok_iff {first : Except ε α} {f : α → β} {b : β} :
    f <$> first = .ok b ↔ ∃ a, first = .ok a ∧ f a = b := by
  cases first <;> simp [Functor.map, Except.map]

@[simp] theorem throw_ne_ok (error : ε) (a : α) : (throw error : Except ε α) ≠ .ok a := by
  intro same
  cases same

theorem bind_eq_error_iff {first : Except ε α} {next : α → Except ε β} {error : ε} :
    (first >>= next) = .error error ↔
      first = .error error ∨ ∃ a, first = .ok a ∧ next a = .error error := by
  cases first <;> simp [bind, Except.bind]

theorem throw_eq_error_iff {error other : ε} :
    (throw error : Except ε α) = .error other ↔ error = other := by
  simp [throw, throwThe, MonadExceptOf.throw]

theorem pure_ne_error (a : α) (error : ε) : (pure a : Except ε α) ≠ .error error := by
  intro same
  cases same

@[simp] theorem mapError_eq_ok_iff {ε' : Type} {first : Except ε α} {name : ε → ε'} {a : α} :
    first.mapError name = .ok a ↔ first = .ok a := by
  cases first with
  | error error => exact ⟨nofun, nofun⟩
  | ok b =>
    show (Except.ok b : Except ε' α) = .ok a ↔ _
    rw [Except.ok.injEq, Except.ok.injEq]

/-! ## Errors -/

variable {allowed : ε → Prop}

def FailsOnlyWith (allowed : ε → Prop) (outcome : Except ε α) : Prop :=
  ∀ error, outcome = .error error → allowed error

theorem failsOnlyWith_ok (a : α) : FailsOnlyWith allowed (.ok a) := nofun

theorem failsOnlyWith_error {error : ε} (expected : allowed error) :
    FailsOnlyWith allowed (.error error : Except ε α) := by
  intro other same
  cases same
  exact expected

theorem FailsOnlyWith.bind {first : Except ε α} {next : α → Except ε β}
    (start : FailsOnlyWith allowed first)
    (rest : ∀ a, first = .ok a → FailsOnlyWith allowed (next a)) :
    FailsOnlyWith allowed (first >>= next) := by
  cases first with
  | error error => exact failsOnlyWith_error (start error rfl)
  | ok a => exact rest a rfl

end SchemaWire.Outcome

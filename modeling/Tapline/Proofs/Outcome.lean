/-!
# Outcomes

An outcome is a result or a failure.  An outcome that is put together from
others succeeds exactly when these do, and what holds of the result and of the
failure is shown one part after the other.
-/

namespace Tapline

theorem bind_eq_ok {ε α β : Type} {first : Except ε α} {next : α → Except ε β}
    {result : β} :
    (first >>= next) = .ok result ↔
      ∃ value, first = .ok value ∧ next value = .ok result := by
  cases first <;> simp [bind, Except.bind]

theorem map_eq_ok {ε α β : Type} {first : Except ε α} {change : α → β}
    {result : β} :
    change <$> first = .ok result ↔
      ∃ value, first = .ok value ∧ change value = result := by
  cases first <;> simp [Functor.map, Except.map]

theorem bind_eq_error {ε α β : Type} {first : Except ε α} {next : α → Except ε β}
    {failure : ε} :
    (first >>= next) = .error failure ↔
      first = .error failure ∨
        ∃ value, first = .ok value ∧ next value = .error failure := by
  cases first <;> simp [bind, Except.bind]

theorem map_eq_error {ε α β : Type} {first : Except ε α} {change : α → β}
    {failure : ε} :
    change <$> first = .error failure ↔ first = .error failure := by
  cases first <;> simp [Functor.map, Except.map]

theorem eq_ok_of_toOption {ε α : Type} {outcome : Except ε α} {result : α}
    (succeeds : outcome.toOption = some result) : outcome = .ok result := by
  cases outcome with
  | error => simp [Except.toOption] at succeeds
  | ok value =>
      simp only [Except.toOption, Option.some.injEq] at succeeds
      rw [succeeds]

theorem exists_eq_ok {ε α : Type} {outcome : Except ε α}
    (succeeds : outcome.toOption.isSome = true) : ∃ value, outcome = .ok value := by
  cases outcome with
  | error => cases succeeds
  | ok value => exact ⟨value, rfl⟩

def failure? {ε α : Type} : Except ε α → Option ε
  | .error failure => some failure
  | .ok _ => none

theorem eq_error_of_failure? {ε α : Type} {outcome : Except ε α} {failure : ε}
    (fails : failure? outcome = some failure) : outcome = .error failure := by
  cases outcome with
  | error found =>
      simp only [failure?, Option.some.injEq] at fails
      rw [fails]
  | ok => simp [failure?] at fails

/-- A failure has the one property, and a result the other. -/
def Meets {ε α : Type} (failed : ε → Prop) (succeeded : α → Prop) :
    Except ε α → Prop
  | .error failure => failed failure
  | .ok result => succeeded result

theorem Meets.bind {ε α β : Type} {failed : ε → Prop} {between : α → Prop}
    {succeeded : β → Prop} {first : Except ε α} {next : α → Except ε β}
    (meets : Meets failed between first)
    (later : ∀ value, between value → Meets failed succeeded (next value)) :
    Meets failed succeeded (first >>= next) := by
  cases first with
  | error failure => exact meets
  | ok value => exact later value meets

/-- Both fail, with related failures, or both succeed, with related results. -/
inductive Alike {ε α β : Type} (failed : ε → ε → Prop) (succeeded : α → β → Prop) :
    Except ε α → Except ε β → Prop where
  | error {left right : ε} : failed left right →
      Alike failed succeeded (.error left) (.error right)
  | ok {left : α} {right : β} : succeeded left right →
      Alike failed succeeded (.ok left) (.ok right)

theorem Alike.of_error {ε α β : Type} {failed : ε → ε → Prop} {succeeded : α → β → Prop}
    {left : ε} {outcome : Except ε β} (alike : Alike failed succeeded (.error left) outcome) :
    ∃ right, outcome = .error right ∧ failed left right := by
  cases alike with
  | error failures => exact ⟨_, rfl, failures⟩

theorem Alike.of_ok {ε α β : Type} {failed : ε → ε → Prop} {succeeded : α → β → Prop}
    {left : α} {outcome : Except ε β} (alike : Alike failed succeeded (.ok left) outcome) :
    ∃ right, outcome = .ok right ∧ succeeded left right := by
  cases alike with
  | ok results => exact ⟨_, rfl, results⟩

theorem Alike.bind {ε α β γ δ : Type} {failed : ε → ε → Prop} {between : α → β → Prop}
    {succeeded : γ → δ → Prop} {left : Except ε α} {right : Except ε β}
    {nextLeft : α → Except ε γ} {nextRight : β → Except ε δ}
    (alike : Alike failed between left right)
    (later : ∀ one other, between one other →
      Alike failed succeeded (nextLeft one) (nextRight other)) :
    Alike failed succeeded (left >>= nextLeft) (right >>= nextRight) := by
  cases alike with
  | error failures => exact .error failures
  | ok results => exact later _ _ results

theorem Alike.map {ε α β γ δ : Type} {failed : ε → ε → Prop} {between : α → β → Prop}
    {succeeded : γ → δ → Prop} {left : Except ε α} {right : Except ε β}
    {changeLeft : α → γ} {changeRight : β → δ} (alike : Alike failed between left right)
    (keeps : ∀ one other, between one other →
      succeeded (changeLeft one) (changeRight other)) :
    Alike failed succeeded (changeLeft <$> left) (changeRight <$> right) := by
  cases alike with
  | error failures => exact .error failures
  | ok results => exact .ok (keeps _ _ results)

end Tapline

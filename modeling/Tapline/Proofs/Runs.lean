import Tapline.Proofs.Tiling

/-!
# Runs of lexemes

A phrase is read from lexemes that follow one another, and its span reaches from
the first of them to the last.  Values that are read one after the other come
from runs that do not meet.

In an ordered list of lexemes, spans of runs inherit the order: the span of a run
inside another one lies within its span, and the spans of separate runs follow
one another.
-/

namespace Tapline

namespace Lexeme

/-- The span from the first lexeme to the last one. -/
def hull : List Lexeme → Span
  | [] => .origin
  | first :: rest => first.span.merge (rest.getLastD first).span

/-- The span of at least one lexeme. -/
def Spanned (used : List Lexeme) (span : Span) : Prop :=
  used ≠ [] ∧ hull used = span

theorem spanned_singleton (lexeme : Lexeme) : Spanned [lexeme] lexeme.span := by
  constructor
  · exact List.cons_ne_nil _ _
  · simp [hull, Span.merge]

/-- Each value belongs to a run of its own, and the runs follow one another. -/
inductive Runs (part : List Lexeme → α → Prop) : List Lexeme → List α → Prop where
  | nil (lexemes : List Lexeme) : Runs part lexemes []
  | run {gap used rest : List Lexeme} {value : α} {values : List α} :
      part used value → Runs part rest values →
        Runs part (gap ++ (used ++ rest)) (value :: values)

namespace Runs

variable {part : List Lexeme → α → Prop} {lexemes : List Lexeme} {values : List α}

theorem single {used : List Lexeme} {value : α} (here : part used value) :
    Runs part used [value] := by
  have alone : Runs part ([] ++ (used ++ [])) [value] := .run here (.nil [])
  rwa [List.nil_append, List.append_nil] at alone

theorem behind (gap : List Lexeme) (runs : Runs part lexemes values) :
    Runs part (gap ++ lexemes) values := by
  cases runs with
  | nil => exact .nil _
  | run here later =>
      rw [← List.append_assoc]
      exact .run here later

theorem append {more : List Lexeme} {others : List α} (runs : Runs part lexemes values)
    (later : Runs part more others) :
    Runs part (lexemes ++ more) (values ++ others) := by
  induction runs with
  | nil lexemes => exact later.behind lexemes
  | run here _ induction =>
      rw [List.append_assoc, List.append_assoc]
      exact .run here induction

theorem map {other : List Lexeme → β → Prop} {change : α → β}
    (runs : Runs part lexemes values)
    (step : ∀ used value, part used value → other used (change value)) :
    Runs other lexemes (values.map change) := by
  induction runs with
  | nil lexemes => exact .nil lexemes
  | run here _ induction => exact .run (step _ _ here) induction

theorem exists_of_mem (runs : Runs part lexemes values) {value : α}
    (member : value ∈ values) : ∃ used, used <:+: lexemes ∧ part used value := by
  induction runs with
  | nil => cases member
  | @run gap used rest _ _ here _ induction =>
      rcases List.mem_cons.mp member with rfl | later
      · exact ⟨used, ⟨gap, rest, List.append_assoc _ _ _⟩, here⟩
      · obtain ⟨other, inside, there⟩ := induction later
        refine ⟨other, inside.trans ?_, there⟩
        rw [← List.append_assoc]
        exact (List.suffix_append _ rest).isInfix

end Runs

/-- No lexeme ends before it begins, or begins before an earlier one has ended. -/
structure Ordered (lexemes : List Lexeme) : Prop where
  start_le_stop : ∀ lexeme ∈ lexemes, lexeme.span.start ≤ lexeme.span.stop
  apart : lexemes.Pairwise fun earlier later =>
    earlier.span.stop ≤ later.span.start

namespace Ordered

variable {lexemes used : List Lexeme} {span : Span}

theorem sublist (ordered : Ordered lexemes) (inside : used.Sublist lexemes) :
    Ordered used :=
  ⟨fun lexeme member => ordered.start_le_stop lexeme (inside.subset member),
    ordered.apart.sublist inside⟩

/-- The span of a run begins where its first lexeme does and ends where its last
one does. -/
theorem ends (ordered : Ordered used) (spanned : Spanned used span) :
    ∃ first last, used.head? = some first ∧ used.getLast? = some last ∧
      span = ⟨first.span.start, last.span.stop⟩ := by
  obtain ⟨nonempty, rfl⟩ := spanned
  cases used with
  | nil => exact (nonempty rfl).elim
  | cons first rest =>
      refine ⟨first, rest.getLastD first, rfl, by simp [List.getLast?_cons], ?_⟩
      have forwards := ordered.start_le_stop first List.mem_cons_self
      simp only [hull, Span.merge, Span.mk.injEq]
      rcases List.eq_nil_or_concat rest with rfl | ⟨between, last, rfl⟩
      · simp
      · rw [List.concat_eq_append] at ordered ⊢
        have member : last ∈ between ++ [last] := by simp
        have behind := (List.pairwise_cons.mp ordered.apart).1 last member
        have forwardsLast := ordered.start_le_stop last (List.mem_cons_of_mem _ member)
        rw [List.getLastD_concat]
        omega

theorem encloses (ordered : Ordered used) (spanned : Spanned used span) :
    ∀ lexeme ∈ used, span.Encloses lexeme.span := by
  obtain ⟨first, last, atHead, atEnd, rfl⟩ := ordered.ends spanned
  intro lexeme member
  constructor
  · obtain ⟨rest, rfl⟩ := List.head?_eq_some_iff.mp atHead
    rcases List.mem_cons.mp member with rfl | later
    · exact Nat.le_refl _
    · have behind := (List.pairwise_cons.mp ordered.apart).1 lexeme later
      have forwards := ordered.start_le_stop first List.mem_cons_self
      simp only
      omega
  · obtain ⟨front, rfl⟩ := List.getLast?_eq_some_iff.mp atEnd
    rcases List.mem_append.mp member with earlier | here
    · have behind := (List.pairwise_append.mp ordered.apart).2.2 lexeme earlier last
        (List.mem_singleton_self last)
      have forwards := ordered.start_le_stop last (by simp)
      simp only
      omega
    · obtain rfl := List.mem_singleton.mp here
      exact Nat.le_refl _

theorem encloses_run (ordered : Ordered used) (spanned : Spanned used span)
    {inner : List Lexeme} {inside : Span} (within : inner <:+: used)
    (spannedInside : Spanned inner inside) : span.Encloses inside := by
  obtain ⟨first, last, atHead, atEnd, rfl⟩ :=
    (ordered.sublist within.sublist).ends spannedInside
  have firstInside := ordered.encloses spanned first
    (within.subset (List.mem_of_head? atHead))
  have lastInside := ordered.encloses spanned last
    (within.subset (List.mem_of_getLast? atEnd))
  exact ⟨firstInside.1, lastInside.2⟩

theorem pairwise (ordered : Ordered lexemes) {spans : List Span}
    (runs : Runs Spanned lexemes spans) :
    spans.Pairwise fun earlier later => earlier.stop ≤ later.start := by
  induction runs with
  | nil => exact .nil
  | @run gap used rest span spans here later induction =>
      have tail : Ordered (used ++ rest) := ordered.sublist (List.sublist_append_right _ _)
      have inUsed : Ordered used := tail.sublist (List.sublist_append_left _ _)
      have inRest : Ordered rest := tail.sublist (List.sublist_append_right _ _)
      refine .cons ?_ (induction inRest)
      intro other member
      obtain ⟨others, within, spanned⟩ := later.exists_of_mem member
      obtain ⟨first, last, -, atEnd, rfl⟩ := inUsed.ends here
      obtain ⟨next, final, atHead, -, rfl⟩ :=
        (inRest.sublist within.sublist).ends spanned
      exact (List.pairwise_append.mp tail.apart).2.2 last (List.mem_of_getLast? atEnd)
        next (within.subset (List.mem_of_head? atHead))

end Ordered

end Lexeme

end Tapline

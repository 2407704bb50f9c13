import Mathlib.Data.List.TakeDrop
import Mathlib.Data.List.TakeWhile

/-!
# Reading

What reading comes to that can fail: one step after another, and where a text is cut that is read up
to the first character of some kind.
-/

namespace Cadence

/-- Something done after something else gives a result only if both do. -/
theorem bind_eq_ok {ε α β : Type} {first : Except ε α} {next : α → Except ε β} {result : β} :
    first >>= next = .ok result ↔ ∃ value, first = .ok value ∧ next value = .ok result := by
  cases first <;> simp [bind, Except.bind]

namespace Text

variable {α : Type} {p : α → Bool} {s front rest : List α}

/-- A text is cut where it goes on with a character that is not of the kind, and nowhere else. -/
theorem span_eq_iff : s.span p = (front, rest) ↔
    s = front ++ rest ∧ (∀ c ∈ front, p c) ∧ ∀ c ∈ rest.head?, p c = false := by
  rw [List.span_eq_takeWhile_dropWhile]
  constructor
  · rintro ⟨⟩
    refine ⟨List.takeWhile_append_dropWhile.symm, fun c => List.mem_takeWhile_imp, ?_⟩
    intro c first
    have stops := List.head?_dropWhile_not p s
    rwa [Option.mem_def.mp first] at stops
  · rintro ⟨rfl, all, stops⟩
    rw [List.takeWhile_append_of_pos all, List.dropWhile_append_of_pos all]
    cases rest with
    | nil => simp
    | cons c rest => simp [stops c rfl]

theorem span_append_cons (h : ∀ c ∈ front, p c) {stop : α} (stops : p stop = false)
    (rest : List α) : (front ++ stop :: rest).span p = (front, stop :: rest) :=
  span_eq_iff.mpr ⟨rfl, h, by simpa using stops⟩

/-- What stands before the first character that is not of the kind can be told from the whole. -/
theorem append_cons_inj {front' rest' : List α} {stop stop' : α} (inside : ∀ c ∈ front, p c)
    (inside' : ∀ c ∈ front', p c) (stops : p stop = false) (stops' : p stop' = false)
    (same : front ++ stop :: rest = front' ++ stop' :: rest') :
    front = front' ∧ stop = stop' ∧ rest = rest' := by
  have cut := congrArg (List.span p) same
  rw [span_append_cons inside stops, span_append_cons inside' stops', Prod.mk.injEq,
    List.cons.injEq] at cut
  exact cut

variable {text : List Char} {stop : Char}

theorem forall_bne_of_notMem (h : stop ∉ text) : ∀ c ∈ text, (c != stop) = true := by
  intro c member
  exact bne_iff_ne.mpr (ne_of_mem_of_not_mem member h)

/-- A text is cut before the place where a character stands first. -/
theorem span_bne_append (first : stop ∉ text) (rest : List Char) :
    (text ++ stop :: rest).span (· != stop) = (text, stop :: rest) :=
  span_append_cons (forall_bne_of_notMem first) (by simp) rest

/-- A text in which the character does not stand is not cut. -/
theorem span_bne_of_notMem (h : stop ∉ text) : text.span (· != stop) = (text, []) :=
  span_eq_iff.mpr ⟨(List.append_nil text).symm, forall_bne_of_notMem h, by simp⟩

end Text

end Cadence

import Cadence.Proofs.Reading
import Cadence.Proofs.Url.Percent
import Cadence.Url.Reader

/-!
# The path of a URL

A URL under a scheme that is treated in a way of its own has a path of one or more segments, none of
which holds a slash; written out and cut at the slashes again, it gives these segments.
-/

namespace Cadence.Url

theorem cutPath_ne_nil (special : Bool) (s : List Char) : cutPath special s ≠ [] := by
  induction s with
  | nil => simp [cutPath]
  | cons c s ih =>
    unfold cutPath
    split
    · simp
    · split <;> simp

/-- No part of a path that is cut at its slashes holds one. -/
theorem slash_notMem_cutPath (special : Bool) (s : List Char) :
    ∀ name ∈ cutPath special s, '/' ∉ name := by
  induction s with
  | nil => simp [cutPath]
  | cons c s ih =>
    unfold cutPath
    split
    · simpa using ih
    · next other =>
      have other : '/' ≠ c := by
        rintro rfl
        exact other (by simp [isSlash])
      split
      · simpa using other
      · next first others same =>
        rw [same] at ih
        rw [List.forall_mem_cons] at ih ⊢
        exact ⟨by simp [other, ih.1], ih.2⟩

/-- One segment is followed: those in front may lose their last, and what is added is the segment or
an empty one, which is added at the end at the latest. -/
theorem follow_cons (front : List (List Char)) (name : List Char) (rest : List (List Char)) :
    ∃ next, follow front (name :: rest) = follow next rest ∧ (rest = [] → next ≠ []) ∧
      ∀ segment ∈ next, segment ∈ front ∨ segment = [] ∨ segment = encode .path name := by
  have closed (kept : List (List Char)) (inside : ∀ segment ∈ kept, segment ∈ front) :
      (rest = [] → (if rest.isEmpty then kept ++ [[]] else kept) ≠ []) ∧
        ∀ segment ∈ (if rest.isEmpty then kept ++ [[]] else kept),
          segment ∈ front ∨ segment = [] ∨ segment = encode .path name := by
    refine ⟨fun last => by simp [last], fun segment member => ?_⟩
    split at member
    · rcases List.mem_append.mp member with old | new
      · exact Or.inl (inside segment old)
      · exact Or.inr (Or.inl (List.mem_singleton.mp new))
    · exact Or.inl (inside segment member)
  rw [follow]
  dsimp only
  split
  · exact ⟨_, rfl, closed _ (List.dropLast_subset front)⟩
  · split
    · exact ⟨_, rfl, closed _ fun segment => id⟩
    · refine ⟨_, rfl, by simp, fun segment member => ?_⟩
      rcases List.mem_append.mp member with old | new
      · exact Or.inl old
      · exact Or.inr (Or.inr (List.mem_singleton.mp new))

theorem follow_ne_nil {front names : List (List Char)} (h : front ≠ [] ∨ names ≠ []) :
    follow front names ≠ [] := by
  induction names generalizing front with
  | nil => simpa [follow] using h
  | cons name rest ih =>
    obtain ⟨next, same, last, -⟩ := follow_cons front name rest
    rw [same]
    exact ih (or_iff_not_imp_right.mpr fun none => last (not_not.mp none))

/-- Segments that are followed hold no slash if the names do not. -/
theorem slash_notMem_follow {front names : List (List Char)}
    (before : ∀ segment ∈ front, '/' ∉ segment) (behind : ∀ name ∈ names, '/' ∉ name) :
    ∀ segment ∈ follow front names, '/' ∉ segment := by
  induction names generalizing front with
  | nil => exact before
  | cons name rest ih =>
    obtain ⟨next, same, -, inside⟩ := follow_cons front name rest
    rw [List.forall_mem_cons] at behind
    rw [same]
    refine ih (fun segment member => ?_) behind.2
    rcases inside segment member with old | rfl | rfl
    · exact before segment old
    · exact List.not_mem_nil
    · exact fun slash => behind.1 (mem_of_mem_encode (by decide) slash).1

/-- The path of a URL under a special scheme. -/
structure Hierarchy (path : UrlPath) (segments : List (List Char)) : Prop where
  path : path = .segments segments
  nonempty : segments ≠ []
  parts : ∀ segment ∈ segments, '/' ∉ segment

theorem exists_hierarchy_readPath (s : List Char) :
    ∃ segments, Hierarchy (readPath true s) segments := by
  cases s with
  | nil => exact ⟨[[]], rfl, by simp, by simp⟩
  | cons c rest =>
    exact ⟨_, rfl, follow_ne_nil (Or.inr (cutPath_ne_nil _ _)),
      slash_notMem_follow (by simp) (slash_notMem_cutPath _ _)⟩

theorem readPlace_eq_ok {scheme : String} {s : List Char} {url : Url}
    (h : readPlace scheme s = .ok url) :
    url.scheme = scheme ∧ (isSpecialScheme scheme = true →
      ∃ segments, Hierarchy url.path segments) := by
  obtain ⟨_, -, h⟩ := bind_eq_ok.mp h
  cases h
  refine ⟨rfl, fun special => ?_⟩
  rw [special]
  exact exists_hierarchy_readPath _

theorem readFile_eq_ok {scheme : String} {s : List Char} {url : Url}
    (h : readFile scheme s = .ok url) : url.scheme = scheme := by
  unfold readFile at h
  dsimp only at h
  split at h
  · split at h
    · split at h
      all_goals
        obtain ⟨_, -, h⟩ := bind_eq_ok.mp h
        cases h
        rfl
    · cases h
      rfl
  · cases h
    rfl

/-- A URL has the scheme it begins with, and under a special scheme other than that of files it has
a path of segments. -/
theorem readFront_eq_ok {scheme : String} {s : List Char} {url : Url}
    (h : readFront scheme s = .ok url) :
    url.scheme = scheme ∧ (isSpecialScheme scheme = true → scheme ≠ "file" →
      ∃ segments, Hierarchy url.path segments) := by
  unfold readFront at h
  split at h
  · next file => exact ⟨readFile_eq_ok h, fun _ other => absurd file other⟩
  · split at h
    · obtain ⟨same, path⟩ := readPlace_eq_ok h
      exact ⟨same, fun special _ => path special⟩
    · next plain =>
      refine ⟨?_, fun special => absurd special plain⟩
      split at h
      · exact (readPlace_eq_ok h).1
      · cases h
        rfl
      · cases h
        rfl

/-- A URL that is read under a special scheme has a path of segments, files apart. -/
theorem exists_hierarchy_parse {text : String} {url : Url} (h : parse text = .ok url)
    (special : isSpecialScheme url.scheme = true) (other : url.scheme ≠ "file") :
    ∃ segments, Hierarchy url.path segments := by
  unfold parse at h
  split at h
  · cases h
  · obtain ⟨front, read, h⟩ := bind_eq_ok.mp h
    cases h
    obtain ⟨same, path⟩ := readFront_eq_ok read
    exact path (same ▸ special) (same ▸ other)

/-- A written path is cut into its segments again, whatever stands in front of it. -/
theorem splitOn_append_chars {first : List Char} {segments : List (List Char)}
    (inside : '/' ∉ first) (parts : ∀ segment ∈ segments, '/' ∉ segment) :
    (first ++ (UrlPath.segments segments).chars).splitOn '/' = first :: segments := by
  induction segments generalizing first with
  | nil =>
    rw [UrlPath.chars, List.flatMap_nil, List.append_nil]
    exact List.splitOn_eq_singleton inside
  | cons segment rest ih =>
    rw [List.forall_mem_cons] at parts
    have others := ih parts.1 parts.2
    rw [UrlPath.chars] at others ⊢
    rw [List.flatMap_cons, List.cons_append, List.splitOn_append_cons_self_of_not_mem inside, others]

theorem splitOn_chars {segments : List (List Char)} (parts : ∀ segment ∈ segments, '/' ∉ segment) :
    (UrlPath.segments segments).chars.splitOn '/' = [] :: segments :=
  splitOn_append_chars List.not_mem_nil parts

end Cadence.Url

import Cadence.Client
import Cadence.Proofs.Key
import Cadence.Proofs.Url.Path

/-!
# Where keys are

A key becomes the last segment of a path, in which nothing but tabs and line breaks is lost: the
segment stands for the key without them. As the numbers in a key hold none, keys with the same stem
are always told apart, and stems are told apart by the characters that count.
-/

namespace Cadence

namespace Url

/-- What of a text counts in a URL: all but tabs and line breaks. -/
def counted (text : String) : String := String.ofList (text.toList.filter (!isDropped ·))

theorem counted_eq_self_iff {text : String} :
    counted text = text ↔ ∀ c ∈ text.toList, isDropped c = false := by
  rw [counted, ← String.toList_inj, String.toList_ofList, List.filter_eq_self]
  simp

/-- The segments that others are put behind: an empty one at the end gives way to them, and where
there are two empty ones and nothing else, both do. -/
def kept (segments : List (List Char)) : List (List Char) :=
  if segments = [[], []] then []
  else if segments.getLast? = some [] then segments.dropLast
  else segments

theorem kept_subset (segments : List (List Char)) : kept segments ⊆ segments := by
  unfold kept
  split_ifs
  · exact List.nil_subset _
  · exact List.dropLast_subset _
  · exact List.Subset.refl _

theorem pushSegment_popEmpty {segments : List (List Char)} (name : List Char)
    (nonempty : segments ≠ []) : pushSegment (popEmpty segments) name = kept segments ++ [name] := by
  match segments, nonempty with
  | [[]], _ | [[], []], _ => rfl
  | [c :: rest], _ => simp [pushSegment, popEmpty, kept]
  | [_, c :: rest], _ | [c :: rest, []], _ => simp [pushSegment, popEmpty, kept]
  | first :: second :: third :: rest, _ =>
    unfold popEmpty kept
    split_ifs <;> simp_all [pushSegment]

/-- Under a special scheme, texts are put behind the segments that stay, one after another. -/
theorem foldl_pushSegment {segments : List (List Char)} (nonempty : segments ≠ [])
    {first second : List Char} (named : first ≠ []) :
    [first, second].foldl pushSegment (popEmpty segments) = kept segments ++ [first, second] := by
  have more : kept segments ++ [first] ≠ [[]] := by
    intro same
    have := congrArg List.getLast? same
    simp [named] at this
  rw [List.foldl_cons, List.foldl_cons, List.foldl_nil, pushSegment_popEmpty first nonempty,
    pushSegment, if_neg more, List.append_assoc]
  rfl

/-- A segment is made of what counts only. -/
theorem segment_eq_of_counted {url : Url} {text other : String} (h : counted text = counted other) :
    url.segment text = url.segment other := by
  rw [segment, segment, String.ofList_injective h]

/-- The path is the only part of a URL that tells it apart from another with the same other parts. -/
theorem text_withPath_inj {url : Url} {path other : UrlPath}
    (h : { url with path := path }.text = { url with path := other }.text) :
    path.chars = other.chars := by
  simpa [text, target, authority, credentials, ← String.toList_inj] using h

end Url

namespace Key

theorem dash_mem_text (stem : String) (worker iteration : Nat) (millis : Int) :
    '-' ∈ (text stem worker iteration millis).toList := by
  simp [toList_text]

theorem isDropped_of_isDigit {c : Char} (digit : c.isDigit = true) : Url.isDropped c = false := by
  cases dropped : Url.isDropped c with
  | false => rfl
  | true =>
    simp only [Url.isDropped, Bool.or_eq_true, beq_iff_eq] at dropped
    rcases dropped with (rfl | rfl) | rfl <;> exact absurd digit (by decide)

/-- Nothing in a key but its stem can hold a character that does not count in URLs. -/
theorem counted_text (stem : String) (worker iteration : Nat) (millis : Int) :
    Url.counted (text stem worker iteration millis) =
      text (Url.counted stem) worker iteration millis := by
  have numbers (n : Nat) :
      (Nat.toDigits 10 n).filter (!Url.isDropped ·) = Nat.toDigits 10 n := by
    rw [List.filter_eq_self]
    intro c member
    simp [isDropped_of_isDigit (Nat.isDigit_of_mem_toDigits (by decide) (by decide) member)]
  have signs : (sign millis).filter (!Url.isDropped ·) = sign millis := by
    unfold sign
    split <;> rfl
  have dash : Url.isDropped '-' = false := rfl
  rw [Url.counted, ← String.toList_inj, String.toList_ofList, toList_text, toList_text]
  simp [front, numbers, signs, dash, Url.counted]

end Key

namespace Client

variable {baseUrl : String} {timeout : Duration} {client : Client}

/-- The scheme of an accepted base is one of the two over which requests go. -/
theorem scheme_of_new (accepted : new baseUrl timeout = .ok client) :
    Url.parse baseUrl = .ok client.base ∧
      (client.base.scheme = "http" ∨ client.base.scheme = "https") := by
  unfold new at accepted
  split at accepted
  · cases accepted
  · next read =>
    split at accepted
    · next scheme =>
      cases accepted
      exact ⟨read, scheme⟩
    · cases accepted

theorem exists_hierarchy_of_new (accepted : new baseUrl timeout = .ok client) :
    ∃ segments, Url.Hierarchy client.base.path segments := by
  obtain ⟨read, scheme⟩ := scheme_of_new accepted
  refine Url.exists_hierarchy_parse read ?_ ?_
  · rcases scheme with http | https
    · rw [http]
      decide
    · rw [https]
      decide
  · rcases scheme with http | https
    · simp [http]
    · simp [https]

theorem segmentSet_of_new (accepted : new baseUrl timeout = .ok client) :
    client.base.segmentSet = .specialSegment := by
  obtain ⟨-, http | https⟩ := scheme_of_new accepted
  · rw [Url.segmentSet, http]
    rfl
  · rw [Url.segmentSet, https]
    rfl

/-- Where a key goes: only the path differs from the base. -/
theorem keyUrl_eq {segments : List (List Char)} (accepted : new baseUrl timeout = .ok client)
    (path : Url.Hierarchy client.base.path segments) (stem : String) (worker iteration : Nat)
    (millis : Int) :
    client.keyUrl (Key.text stem worker iteration millis) =
      { client.base with
        path := .segments (Url.kept segments ++
          ["kv".toList, client.base.segment (Key.text stem worker iteration millis)]) } := by
  have set := segmentSet_of_new accepted
  have named : client.base.segment "kv" = "kv".toList := by
    rw [Url.segment, set]
    cbv
  have noDirectory (dots : String) (dashless : '-' ∉ dots.toList) :
      (Key.text stem worker iteration millis == dots) = false := by
    rw [beq_eq_false_iff_ne]
    rintro rfl
    exact dashless (Key.dash_mem_text ..)
  have kept : ["kv", Key.text stem worker iteration millis].filter
      (fun text => !(text == "." || text == "..")) =
        ["kv", Key.text stem worker iteration millis] := by
    simp [noDirectory "." (by decide), noDirectory ".." (by decide)]
  rw [keyUrl, Url.extend, path.path]
  dsimp only
  rw [kept, List.map_cons, List.map_cons, List.map_nil, named,
    Url.foldl_pushSegment path.nonempty (by decide)]

/-- The segment of a key: no character in it ends it, and it stands for what of the key counts. -/
theorem segment_of_new (accepted : new baseUrl timeout = .ok client) (key : String) :
    (∀ c ∈ Url.separators, c ∉ client.base.segment key) ∧
      Url.decode? (client.base.segment key) = some (Url.counted key) := by
  rw [Url.segment, segmentSet_of_new accepted]
  have held : ∀ c ∈ '%' :: Url.separators, Url.CharSet.specialSegment c = true := by
    simp [Url.separators, Url.CharSet.specialSegment, Url.CharSet.segment, Url.CharSet.path,
      Url.CharSet.extend]
  refine ⟨fun c separates member => ?_, Url.decode?_encode (held _ List.mem_cons_self) _⟩
  have stands := (Url.mem_of_mem_encode separates member).2
  simp [held c (List.mem_cons_of_mem _ separates)] at stands

/-- The path of a key, cut at its slashes again. -/
theorem splitOn_keyUrl {segments : List (List Char)} (accepted : new baseUrl timeout = .ok client)
    (path : Url.Hierarchy client.base.path segments) (stem : String) (worker iteration : Nat)
    (millis : Int) :
    (client.keyUrl (Key.text stem worker iteration millis)).path.chars.splitOn '/' =
      [] :: (Url.kept segments ++
        ["kv".toList, client.base.segment (Key.text stem worker iteration millis)]) := by
  have slashless := (segment_of_new accepted (Key.text stem worker iteration millis)).1 '/'
    (by decide)
  rw [keyUrl_eq accepted path]
  refine Url.splitOn_chars fun segment member => ?_
  rcases List.mem_append.mp member with old | new
  · exact path.parts segment (Url.kept_subset segments old)
  · rcases List.mem_pair.mp new with rfl | rfl
    · decide
    · exact slashless

/-- Keys go to the same URL just if they are the same as far as they count. -/
theorem keyUrl_text_eq_iff (accepted : new baseUrl timeout = .ok client)
    {stem stem' : String} {worker worker' iteration iteration' : Nat} {millis millis' : Int} :
    (client.keyUrl (Key.text stem' worker' iteration' millis')).text =
        (client.keyUrl (Key.text stem worker iteration millis)).text ↔
      Url.counted stem' = Url.counted stem ∧ worker' = worker ∧ iteration' = iteration ∧
        millis' = millis := by
  obtain ⟨segments, path⟩ := exists_hierarchy_of_new accepted
  constructor
  · intro same
    have paths : (client.keyUrl (Key.text stem' worker' iteration' millis')).path.chars =
        (client.keyUrl (Key.text stem worker iteration millis)).path.chars := by
      rw [keyUrl_eq accepted path, keyUrl_eq accepted path] at same ⊢
      exact Url.text_withPath_inj same
    have cut := congrArg (List.splitOn '/') paths
    rw [splitOn_keyUrl accepted path, splitOn_keyUrl accepted path] at cut
    have last : client.base.segment (Key.text stem' worker' iteration' millis') =
        client.base.segment (Key.text stem worker iteration millis) := by simpa using cut
    have decoded := congrArg Url.decode? last
    rw [(segment_of_new accepted _).2, (segment_of_new accepted _).2, Option.some.injEq,
      Key.counted_text, Key.counted_text] at decoded
    exact Key.text_inj decoded
  · rintro ⟨stems, rfl, rfl, rfl⟩
    have counted : Url.counted (Key.text stem' worker' iteration' millis') =
        Url.counted (Key.text stem worker' iteration' millis') := by
      rw [Key.counted_text, Key.counted_text, stems]
    rw [keyUrl_eq accepted path, keyUrl_eq accepted path, Url.segment_eq_of_counted counted]

/-- A client for a gateway on this machine. -/
def loopback : Client where
  base :=
    { scheme := "http", username := [], password := []
      host := some (.address6 [0, 0, 0, 0, 0, 0, 0, 1]), port := some 3000
      path := .segments [[]], query := none, fragment := none }
  timeout := .ofSecs 10

theorem new_loopback : new "http://[::1]:3000" (.ofSecs 10) = .ok loopback := rfl

/-- A key takes one segment of the path, the last one behind the segments of the base and `kv`; all
other parts are those of the base. The segment stands for the key without tabs and line breaks, so
it stands for the key just if there are none in its stem. Two keys go to the same URL just if they
are the same but for tabs and line breaks. -/
theorem key_in_one_segment (accepted : new baseUrl timeout = .ok client) :
    ∃ segments, client.base.path = .segments segments ∧ segments ≠ [] ∧
    ∀ stem worker iteration millis, ∃ last,
      let key := Key.text stem worker iteration millis
      client.keyUrl key =
        { client.base with path := .segments (Url.kept segments ++ ["kv".toList, last]) } ∧
      (client.keyUrl key).path.chars.splitOn '/' =
        [] :: (Url.kept segments ++ ["kv".toList, last]) ∧
      (∀ c ∈ Url.separators, c ∉ last) ∧
      Url.decode? last = some (Key.text (Url.counted stem) worker iteration millis) ∧
      (Url.decode? last = some key ↔ ∀ c ∈ stem.toList, Url.isDropped c = false) ∧
      ∀ stem' worker' iteration' millis',
        ((client.keyUrl (Key.text stem' worker' iteration' millis')).text =
            (client.keyUrl key).text ↔
          Url.counted stem' = Url.counted stem ∧ worker' = worker ∧ iteration' = iteration ∧
            millis' = millis) := by
  obtain ⟨segments, path⟩ := exists_hierarchy_of_new accepted
  refine ⟨segments, path.path, path.nonempty, fun stem worker iteration millis =>
    ⟨_, keyUrl_eq accepted path .., splitOn_keyUrl accepted path .., (segment_of_new accepted _).1,
      ?_, ?_, fun _ _ _ _ => keyUrl_text_eq_iff accepted⟩⟩
  · rw [(segment_of_new accepted _).2, Key.counted_text]
  · rw [(segment_of_new accepted _).2, Option.some.injEq, Key.counted_text,
      ← Url.counted_eq_self_iff]
    exact ⟨fun same => (Key.text_inj same).1, fun same => by rw [same]⟩

example : (loopback.keyUrl "a/b c?d#e").text = "http://[::1]:3000/kv/a%2Fb%20c%3Fd%23e" := by
  cbv

/-- A stem with slashes and percent signs is found again in the path. -/
theorem key_in_one_segment_loopback :
    new "http://[::1]:3000" (.ofSecs 10) = .ok loopback ∧
    ∃ last, (loopback.keyUrl (Key.text "a/b%" 7 42 (-1))).path = .segments ["kv".toList, last] ∧
      Url.decode? last = some (Key.text "a/b%" 7 42 (-1)) := by
  obtain ⟨segments, path, -, every⟩ := key_in_one_segment new_loopback
  cases path
  obtain ⟨last, url, -, -, -, stands, -⟩ := every "a/b%" 7 42 (-1)
  exact ⟨new_loopback, last, by rw [url]; rfl, stands.mpr (by simp [Url.isDropped])⟩

/-- A tab in a stem is lost, and with it the difference between two keys: no segment stands for the
one with the tab. -/
theorem keys_merged_by_tab :
    new "http://[::1]:3000" (.ofSecs 10) = .ok loopback ∧
    Key.text "a\tb" 1 2 3 ≠ Key.text "ab" 1 2 3 ∧
    loopback.keyUrl (Key.text "a\tb" 1 2 3) = loopback.keyUrl (Key.text "ab" 1 2 3) ∧
    ∃ last, (loopback.keyUrl (Key.text "a\tb" 1 2 3)).path = .segments ["kv".toList, last] ∧
      Url.decode? last = some (Key.text "ab" 1 2 3) := by
  have path : Url.Hierarchy loopback.base.path [[]] := ⟨rfl, by simp, by simp⟩
  have same : Url.counted (Key.text "a\tb" 1 2 3) = Key.text "ab" 1 2 3 := by decide +kernel
  have again : Url.counted (Key.text "ab" 1 2 3) = Key.text "ab" 1 2 3 := by decide +kernel
  refine ⟨new_loopback, by decide +kernel, ?_,
    loopback.base.segment (Key.text "a\tb" 1 2 3), ?_, ?_⟩
  · rw [keyUrl_eq new_loopback path, keyUrl_eq new_loopback path,
      Url.segment_eq_of_counted (same.trans again.symm)]
  · rw [keyUrl_eq new_loopback path]
    rfl
  · rw [(segment_of_new new_loopback _).2, same]

end Client

end Cadence

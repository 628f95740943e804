import GlobalServer.Lib.Separated

/-!
# StringUtil::Split

`Split` looks for the next character that is one of the separator's, and goes
on the separator's length behind it. What lies between is read from a string
stream, so that a string ends at the first white space; an empty piece gives a
new `T`, and none at all behind the last separator.
-/

namespace GlobalServer.StringUtil

/-- `isspace` of the classic locale -/
def isspace (c : Char) : Bool := c = ' ' ∨ ('\t' ≤ c ∧ c ≤ '\r')

/-- `iss >> t` into a `std::string` -/
def word (sub : List Char) : List Char := Separated.firstWord isspace sub

section
variable {T : Type} (read : List Char → T) (t : T)

/-- What `Split` does from `start` on: `none` where `substr` throws, its `start` being behind the end. -/
def pieces (separator source : List Char) : Option (List T) :=
  let sub := source.takeWhile (· ∉ separator)
  match h : source.dropWhile (· ∉ separator) with
  | [] => some (if sub = [] then [] else [read sub])
  | _ :: rest =>
    if separator.length ≤ rest.length + 1 then
      (pieces separator (rest.drop (separator.length - 1))).map fun array =>
        (if sub = [] then t else read sub) :: array
    else none
termination_by source.length
decreasing_by
  have hle := (List.dropWhile_suffix (l := source) fun c => decide (c ∉ separator)).length_le
  simp only [h, List.length_cons] at hle
  rw [List.length_drop]
  omega

end

/-- `Split` into strings -/
def split (source separator : String) : Option (List String) :=
  (pieces word [] separator.toList source.toList).map (List.map String.ofList)

section
variable {T : Type} {read : List Char → T} {t : T} {separator : List Char}

theorem pieces_last {f : List Char} (hf : ∀ c ∈ f, c ∉ separator) :
    pieces read t separator f = some (if f = [] then [] else [read f]) := by
  have ht : f.takeWhile (fun c => decide (c ∉ separator)) = f := List.takeWhile_eq_self_iff.mpr (by simpa using hf)
  have hd : f.dropWhile (fun c => decide (c ∉ separator)) = [] := List.dropWhile_eq_nil_iff.mpr (by simpa using hf)
  rw [pieces]
  split
  · rw [ht]
  · rename_i he
    rw [hd] at he
    cases he

theorem pieces_next {f : List Char} (hf : ∀ c ∈ f, c ∉ separator) {c : Char} (hc : c ∈ separator) (rest : List Char) :
    pieces read t separator (f ++ c :: rest) =
      if separator.length ≤ rest.length + 1 then
        (pieces read t separator (rest.drop (separator.length - 1))).map fun array =>
          (if f = [] then t else read f) :: array
      else none := by
  have hp : ∀ x ∈ f, decide (x ∉ separator) = true := by simpa using hf
  have ht : (f ++ c :: rest).takeWhile (fun c => decide (c ∉ separator)) = f := by
    rw [List.takeWhile_append_of_pos hp]
    simp [hc]
  have hd : (f ++ c :: rest).dropWhile (fun c => decide (c ∉ separator)) = c :: rest := by
    rw [List.dropWhile_append_of_pos hp]
    simp [hc]
  rw [pieces]
  split
  · rename_i he
    rw [hd] at he
    cases he
  · rename_i he
    rw [hd] at he
    cases he
    rw [ht]

theorem pieces_append {f : List Char} (hf : ∀ c ∈ f, c ∉ separator) (hs : separator ≠ []) (rest : List Char) :
    pieces read t separator (f ++ separator ++ rest) =
      (pieces read t separator rest).map fun array => (if f = [] then t else read f) :: array := by
  obtain ⟨c, s, rfl⟩ := List.exists_cons_of_ne_nil hs
  have hl : (c :: s).length ≤ (s ++ rest).length + 1 := by simp
  have hd : (s ++ rest).drop ((c :: s).length - 1) = rest := by simp
  rw [List.append_assoc, List.cons_append, pieces_next hf List.mem_cons_self, if_pos hl, hd]

end

/-! ## Strings -/

theorem word_eq_self_iff {f : List Char} : word f = f ↔ ∀ c ∈ f, isspace c = false := Separated.firstWord_eq_self_iff

theorem ite_word (f : List Char) : (if f = [] then [] else word f) = word f := by
  cases f with
  | nil => rfl
  | cons => rfl

theorem exists_first {separator : List Char} : ∀ {f : List Char}, (∃ c ∈ f, c ∈ separator) →
    ∃ p c q, f = p ++ c :: q ∧ (∀ x ∈ p, x ∉ separator) ∧ c ∈ separator
  | [], ⟨_, h, _⟩ => absurd h List.not_mem_nil
  | c :: f, ⟨x, hx, hs⟩ => by
    by_cases hc : c ∈ separator
    · exact ⟨[], c, f, rfl, by simp, hc⟩
    · have hxf : x ∈ f := (List.mem_cons.mp hx).resolve_left fun e => hc (e ▸ hs)
      obtain ⟨p, d, q, rfl, hp, hd⟩ := exists_first ⟨x, hxf, hs⟩
      exact ⟨c :: p, d, q, rfl, by simpa using ⟨hc, hp⟩, hd⟩

theorem pieces_ne_of_mem {separator f : List Char} (hf : ∃ c ∈ f, c ∈ separator) (rest : List Char)
    (fs : List (List Char)) : pieces word [] separator (f ++ rest) ≠ some (f :: fs) := by
  obtain ⟨p, c, q, rfl, hp, hc⟩ := exists_first hf
  rw [List.append_assoc, List.cons_append, pieces_next hp hc, ite_word]
  intro h
  split at h
  · obtain ⟨array, -, he⟩ := Option.map_eq_some_iff.mp h
    have hlen := congrArg List.length (List.cons.inj he).1
    have hle : (word p).length ≤ p.length := Separated.length_firstWord_le
    simp at hlen
    omega
  · cases h

/-- Joined fields come back when none has white space or a character of the separator and the last is not empty. -/
theorem pieces_intercalate_iff {separator : List Char} (hs : separator ≠ []) : ∀ fields : List (List Char),
    pieces word [] separator (separator.intercalate fields) = some fields ↔
      (∀ f ∈ fields, ∀ c ∈ f, c ∉ separator ∧ isspace c = false) ∧ fields.getLast? ≠ some []
  | [] => by simp [pieces_last]
  | f :: fs => by
    by_cases hf : ∃ c ∈ f, c ∈ separator
    · obtain ⟨rest, hr⟩ : ∃ rest, separator.intercalate (f :: fs) = f ++ rest := by
        cases fs with
        | nil => exact ⟨[], by simp⟩
        | cons g gs => exact ⟨separator ++ separator.intercalate (g :: gs), by simp⟩
      rw [hr]
      refine iff_of_false (pieces_ne_of_mem hf rest fs) fun h => ?_
      obtain ⟨c, hc, hcs⟩ := hf
      exact (h.1 f List.mem_cons_self c hc).1 hcs
    · have hf : ∀ c ∈ f, c ∉ separator := fun c hc hcs => hf ⟨c, hc, hcs⟩
      have hw : (∀ c ∈ f, c ∉ separator ∧ isspace c = false) ↔ word f = f := by
        rw [word_eq_self_iff]
        exact forall₂_congr fun c hc => and_iff_right (hf c hc)
      cases fs with
      | nil =>
        rw [List.intercalate_singleton, pieces_last hf, List.forall_mem_singleton, hw]
        by_cases h0 : f = []
        · simp [h0]
        · simp [h0]
      | cons g gs =>
        have ih := pieces_intercalate_iff hs (g :: gs)
        rw [List.intercalate_cons_cons, pieces_append hf hs, ite_word, List.forall_mem_cons, hw, and_assoc,
          List.getLast?_cons_cons, ← ih]
        constructor
        · intro h
          obtain ⟨array, ha, he⟩ := Option.map_eq_some_iff.mp h
          obtain ⟨h1, rfl⟩ := List.cons.inj he
          exact ⟨h1, ha⟩
        · intro h
          rw [h.2, Option.map_some, h.1]

theorem split_intercalate_iff {separator : String} (hs : separator ≠ "") (fields : List String) :
    split (separator.intercalate fields) separator = some fields ↔
      (∀ f ∈ fields, ∀ c ∈ f.toList, c ∉ separator.toList ∧ isspace c = false) ∧ fields.getLast? ≠ some "" := by
  have hback : (fields.map String.toList).map String.ofList = fields := by simp
  have hlast : (fields.map String.toList).getLast? = some [] ↔ fields.getLast? = some "" := by
    rw [List.getLast?_map, Option.map_eq_some_iff]
    constructor
    · intro ⟨f, hf, h0⟩
      rw [hf, String.toList_eq_nil_iff.mp h0]
    · intro h
      exact ⟨"", h, rfl⟩
  have hiff : split (separator.intercalate fields) separator = some fields ↔
      pieces word [] separator.toList (separator.toList.intercalate (fields.map String.toList)) =
        some (fields.map String.toList) := by
    unfold split
    rw [String.toList_intercalate]
    constructor
    · intro h
      obtain ⟨array, ha, he⟩ := Option.map_eq_some_iff.mp h
      rw [ha, ← he]
      simp
    · intro h
      rw [h, Option.map_some, hback]
  rw [hiff, pieces_intercalate_iff (by simpa using hs), Ne, hlast]
  simp

end GlobalServer.StringUtil

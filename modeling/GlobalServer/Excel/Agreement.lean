import GlobalServer.Excel.Translator
import Mathlib.Data.List.Nodup
import Mathlib.Data.List.TakeWhile

/-!
# What the interpreter declares and what the parser sets

An array without an index puts its name in the place of the dictionary in
which the interpreter looks up the arrays with one. From there on these are
passed over when their name is a part of that name, and stop the interpreter
when it is not. The parser goes by the name in the header as it is, with its
default value, where protoc drops the blanks and the comments around a name.
-/

namespace GlobalServer.Excel

/-! ## The condition on the header -/

/-- The columns whose name can be declared; the flag says that an array without an index has come. -/
def defining : Bool → List Column → List Column
  | _, [] => []
  | after, c :: header =>
    if ¬ c.inScope then defining after header
    else if c.isIndexed then if after then defining after header else c :: defining after header
    else c :: defining (after || c.isArray) header

/-- The arrays with an index behind one without. -/
def overlooked : Bool → List Column → List Column
  | _, [] => []
  | after, c :: header =>
    if ¬ c.inScope then overlooked after header
    else if c.isIndexed then if after then c :: overlooked after header else overlooked after header
    else overlooked (after || c.isArray) header

/-- The name of an array with an index is a part of the name of the last one without. -/
def Inside : Option Str → List Column → Prop
  | _, [] => True
  | last, c :: header =>
    if ¬ c.inScope then Inside last header
    else if c.isIndexed then (∀ name ∈ last, c.fieldName <:+: name) ∧ Inside last header
    else Inside (if c.isArray then some c.fieldName else last) header

/-- Columns with one name are columns of one array. -/
def OneArray (c d : Column) : Prop :=
  c.declaredName = d.declaredName → c.isIndexed = true ∧ d.isIndexed = true ∧ c.fieldName = d.fieldName

/-- The type with which a column is declared. -/
def Column.declaredType (c : Column) : String := (declaration c.protoRule c.fieldType c.fieldName 0).fieldType

def Column.declaredDefault (c : Column) : Option Str := (declaration c.protoRule c.fieldType c.fieldName 0).default

/-- The line of a column declares a field. -/
structure Readable (protoc : Protoc) (c : Column) : Prop where
  name : c.declaredName.isSome = true
  type : protoc.takesType c.declaredType = true
  default : ∀ v ∈ c.declaredDefault, c.isArray = false ∧ protoc.takesDefault c.declaredType v = true

/-- The first column of a name. -/
def firstOf (header : List Column) (name : Option Str) : Option Column :=
  (defining false header).find? fun c => c.declaredName = name

structure HeaderOk (protoc : Protoc) (header : List Column) : Prop where
  inside : Inside none header
  overlooked : ∀ c ∈ overlooked false header, ∃ d ∈ defining false header, d.declaredName = c.declaredName
  distinct : (defining false header).Pairwise OneArray
  readable : ∀ name, ∀ c ∈ firstOf header name, Readable protoc c

/-- The name of a column that is set is that of a field, and the first column of the name takes the value. -/
def RowsOk {Cell F : Type} (py : Python Cell F) (header : List Column) (rows : List (List Cell)) : Prop :=
  ∀ x ∈ DataParser.values py (DataParser.cells py header rows), isIdentifier x.1.fieldName = true ∧
    ∀ d ∈ firstOf header x.1.declaredName, d.isArray = x.1.isArray ∧ ∀ v ∈ x.2, Takes d.declaredType v

/-! ## The columns that are laid out -/

def RepeatedNameNow.last : RepeatedNameNow → Option Str
  | .dict _ => none
  | .str name => some name

def kept : RepeatedNameNow → List Column → List Column
  | _, [] => []
  | r, c :: header =>
    if ¬ c.inScope then kept r header
    else if c.isIndexed then
      match r with
      | .dict names => if isIn c.fieldName names then kept r header else c :: kept (.dict (c.fieldName :: names)) header
      | .str _ => kept r header
    else if c.isArray then c :: kept (.str c.fieldName) header
    else c :: kept r header

/-- A declaration of the column. -/
def Declares (c : Column) (d : Declaration) : Prop := ∃ i, d = declaration c.protoRule c.fieldType c.fieldName i

namespace SheetInterpreter

/-- The rest of the columns is laid out behind what is there. -/
def LaysOut (s : SheetInterpreter) (header : List Column) : Prop :=
  ∃ s' ds, header.foldlM fieldDefine s = .ok s' ∧ s'.output = s.output ++ ds ∧
    List.Forall₂ Declares (kept s.repeatedNameNow header) ds

theorem LaysOut.skip {s : SheetInterpreter} {c : Column} {header : List Column} (hs : fieldDefine s c = .ok s)
    (hk : kept s.repeatedNameNow (c :: header) = kept s.repeatedNameNow header) (h : LaysOut s header) :
    LaysOut s (c :: header) := by
  obtain ⟨s', ds, hf, hout, hds⟩ := h
  refine ⟨s', ds, ?_, hout, hk ▸ hds⟩
  rw [List.foldlM_cons, hs, Except.ok_bind, hf]

theorem LaysOut.keep {s : SheetInterpreter} (s₁ : SheetInterpreter) {c : Column} {header : List Column}
    (hs : fieldDefine s c = .ok (layoutOneField s₁ c)) (ho : s₁.output = s.output)
    (hk : kept s.repeatedNameNow (c :: header) = c :: kept s₁.repeatedNameNow header)
    (h : LaysOut (layoutOneField s₁ c) header) : LaysOut s (c :: header) := by
  obtain ⟨s', ds, hf, hout, hds⟩ := h
  refine ⟨s', declaration c.protoRule c.fieldType c.fieldName s₁.fieldIndex :: ds, ?_, ?_, ?_⟩
  · rw [List.foldlM_cons, hs, Except.ok_bind, hf]
  · rw [hout, layoutOneField, ho, List.append_assoc, List.singleton_append]
  · rw [hk]
    exact .cons ⟨s₁.fieldIndex, rfl⟩ hds

theorem laysOut : ∀ {header : List Column} {s : SheetInterpreter}, Inside s.repeatedNameNow.last header →
    LaysOut s header
  | [], s, _ => ⟨s, [], rfl, by simp, .nil⟩
  | c :: header, s, h => by
    unfold Inside at h
    by_cases hc : c.inScope
    · by_cases hi : c.isIndexed
      · simp only [hc, hi, not_true_eq_false, if_false, if_true] at h
        cases hr : s.repeatedNameNow with
        | dict names =>
          rw [hr] at h
          by_cases hn : isIn c.fieldName names
          · apply LaysOut.skip
            · simp [fieldDefine, hc, hi, hr, hn]
            · simp [kept, hc, hi, hr, hn]
            · exact laysOut (hr ▸ h.2)
          · apply LaysOut.keep { s with repeatedNameNow := .dict (c.fieldName :: names) }
            · simp [fieldDefine, hc, hi, hr, hn]
            · rfl
            · simp [kept, hc, hi, hr, hn]
            · exact laysOut h.2
        | str name =>
          rw [hr] at h
          apply LaysOut.skip
          · simp [fieldDefine, hc, hi, hr, h.1 name rfl]
          · simp [kept, hc, hi, hr]
          · exact laysOut (hr ▸ h.2)
      · simp only [hc, hi, not_true_eq_false, if_false] at h
        by_cases ha : c.isArray
        · apply LaysOut.keep { s with repeatedNameNow := .str c.fieldName }
          · simp [fieldDefine, hc, hi, ha]
          · rfl
          · simp [kept, hc, hi, ha]
          · rw [if_pos ha] at h
            exact laysOut h
        · apply LaysOut.keep s
          · simp [fieldDefine, hc, hi, ha]
          · rfl
          · simp [kept, hc, hi, ha]
          · rw [if_neg ha] at h
            exact laysOut h
    · apply LaysOut.skip
      · simp [fieldDefine, hc]
      · simp [kept, hc]
      · rw [if_pos hc] at h
        exact laysOut h

theorem inside_of_ok : ∀ {header : List Column} {s s' : SheetInterpreter}, header.foldlM fieldDefine s = .ok s' →
    Inside s.repeatedNameNow.last header
  | [], _, _, _ => trivial
  | c :: header, s, s', h => by
    rw [List.foldlM_cons] at h
    obtain ⟨s₁, hs₁, h⟩ := Except.bind_eq_ok.mp h
    have ih := inside_of_ok h
    unfold fieldDefine at hs₁
    unfold Inside
    by_cases hc : c.inScope
    · by_cases hi : c.isIndexed
      · simp only [hc, hi, not_true_eq_false, if_false, if_true] at hs₁ ⊢
        cases hr : s.repeatedNameNow with
        | dict names =>
          rw [hr] at hs₁
          refine ⟨nofun, ?_⟩
          by_cases hn : isIn c.fieldName names
          · simp only [hn, if_true, Except.ok.injEq] at hs₁
            rw [← hs₁, hr] at ih
            exact ih
          · simp only [hn, Bool.false_eq_true, if_false, Except.ok.injEq] at hs₁
            rw [← hs₁] at ih
            exact ih
        | str name =>
          rw [hr] at hs₁
          by_cases hn : c.fieldName <:+: name
          · simp only [hn, if_true, Except.ok.injEq] at hs₁
            rw [← hs₁, hr] at ih
            refine ⟨fun n hm => ?_, ih⟩
            obtain rfl := Option.some.inj hm
            exact hn
          · simp [hn] at hs₁
      · simp only [hc, hi, not_true_eq_false, Bool.false_eq_true, if_false] at hs₁ ⊢
        by_cases ha : c.isArray
        · simp only [ha, if_true, Except.ok.injEq] at hs₁ ⊢
          rw [← hs₁] at ih
          exact ih
        · simp only [ha, Bool.false_eq_true, if_false, Except.ok.injEq] at hs₁ ⊢
          rw [← hs₁] at ih
          exact ih
    · simp only [hc, Bool.false_eq_true, not_false_eq_true, if_true, Except.ok.injEq] at hs₁ ⊢
      rw [hs₁]
      exact ih

end SheetInterpreter

/-! ## Names that are declared -/

/-- A column of an array that has been laid out. -/
def RepeatedNameNow.has : RepeatedNameNow → Column → Bool
  | .dict names, c => c.isIndexed && isIn c.fieldName names
  | .str _, c => c.isIndexed

def RepeatedNameNow.after : RepeatedNameNow → Bool
  | .dict _ => false
  | .str _ => true

/-- The columns that are still to come and are not of an array that has been laid out. -/
def fresh (r : RepeatedNameNow) (header : List Column) : List Column :=
  (defining r.after header).filter fun c => ! r.has c

theorem declaredName_of_indexed {c d : Column} (h : c.fieldName = d.fieldName) : c.declaredName = d.declaredName := by
  rw [Column.declaredName, Column.declaredName, Column.lineName, Column.lineName, h]

theorem not_isIndexed_of_defining : ∀ {header : List Column} {c : Column}, c ∈ defining true header →
    c.isIndexed = false
  | [], _, h => by simp [defining] at h
  | d :: header, c, h => by
    unfold defining at h
    by_cases hd : d.inScope
    · by_cases hi : d.isIndexed
      · simp only [hd, hi, not_true_eq_false, if_false, if_true] at h
        exact not_isIndexed_of_defining h
      · simp only [hd, hi, not_true_eq_false, Bool.false_eq_true, if_false, Bool.true_or, List.mem_cons] at h
        rcases h with rfl | h
        · simpa using hi
        · exact not_isIndexed_of_defining h
    · simp only [hd, Bool.false_eq_true, not_false_eq_true, if_true] at h
      exact not_isIndexed_of_defining h

theorem fresh_after {r : RepeatedNameNow} {header : List Column} :
    (defining true header).filter (fun c => ! r.has c) = defining true header := by
  rw [List.filter_eq_self]
  intro c hc
  have hi := not_isIndexed_of_defining hc
  cases r <;> simp [RepeatedNameNow.has, hi]

/-- What `kept` does with the first column, in the terms of `fresh`. -/
inductive Kept (r : RepeatedNameNow) (c : Column) (header : List Column) : Prop
  | skip (hk : kept r (c :: header) = kept r header) (hf : fresh r (c :: header) = fresh r header)
  | single (r' : RepeatedNameNow) (hk : kept r (c :: header) = c :: kept r' header)
      (hf : fresh r (c :: header) = c :: fresh r' header) (hi : c.isIndexed = false)
  | array (r' : RepeatedNameNow) (hk : kept r (c :: header) = c :: kept r' header)
      (hf : fresh r (c :: header) = c :: fresh r header) (hi : c.isIndexed = true)
      (hr : fresh r' header = (fresh r header).filter fun d => ! (d.isIndexed && decide (d.fieldName = c.fieldName)))

theorem kept_cases (r : RepeatedNameNow) (c : Column) (header : List Column) : Kept r c header := by
  by_cases hc : c.inScope
  · by_cases hi : c.isIndexed
    · cases r with
      | str name => exact .skip (by simp [kept, hc, hi]) (by simp [fresh, defining, hc, hi, RepeatedNameNow.after])
      | dict names =>
        by_cases hn : isIn c.fieldName names
        · apply Kept.skip
          · simp [kept, hc, hi, hn]
          · simp [fresh, defining, hc, hi, hn, RepeatedNameNow.after, RepeatedNameNow.has]
        · apply Kept.array (.dict (c.fieldName :: names))
          · simp [kept, hc, hi, hn]
          · simp [fresh, defining, hc, hi, hn, RepeatedNameNow.after, RepeatedNameNow.has]
          · exact hi
          · simp only [fresh, RepeatedNameNow.after, List.filter_filter]
            apply List.filter_congr
            intro d _
            cases hd : d.isIndexed <;> simp [RepeatedNameNow.has, isIn, hd]
    · have hi' : c.isIndexed = false := by simpa using hi
      by_cases ha : c.isArray
      · apply Kept.single (.str c.fieldName)
        · simp [kept, hc, hi, ha]
        · have hh : r.has c = false := by cases r <;> simp [RepeatedNameNow.has, hi']
          simp only [fresh, defining, hc, hi', ha, RepeatedNameNow.after, Bool.or_true, not_true_eq_false,
            Bool.false_eq_true, if_false, fresh_after, List.filter_cons, hh, Bool.not_false, if_true]
        · exact hi'
      · apply Kept.single r
        · simp [kept, hc, hi, ha]
        · have hh : r.has c = false := by cases r <;> simp [RepeatedNameNow.has, hi']
          simp [fresh, defining, hc, hi', ha, hh]
        · exact hi'
  · exact .skip (by simp [kept, hc]) (by simp [fresh, defining, hc])

theorem find?_kept (n : Option Str) : ∀ {header : List Column} (r : RepeatedNameNow),
    (kept r header).find? (fun c => c.declaredName = n) = (fresh r header).find? fun c => c.declaredName = n
  | [], r => by simp [kept, fresh, defining]
  | c :: header, r => by
    cases kept_cases r c header with
    | skip hk hf => rw [hk, hf, find?_kept n r]
    | single r' hk hf hi => rw [hk, hf, List.find?_cons, List.find?_cons, find?_kept n r']
    | array r' hk hf hi hr =>
      rw [hk, hf, List.find?_cons, List.find?_cons, find?_kept n r', hr, List.find?_filter]
      by_cases hn : c.declaredName = n
      · simp [hn]
      · have he : ∀ d : Column, (! (d.isIndexed && decide (d.fieldName = c.fieldName))) = true ∧
            decide (d.declaredName = n) = true ↔ d.declaredName = n := by
          intro d
          by_cases hd : d.fieldName = c.fieldName
          · simp [declaredName_of_indexed hd, hn]
          · simp [hd]
        simp only [hn, he]

theorem mem_kept_iff {n : Option Str} {header : List Column} {r : RepeatedNameNow} :
    n ∈ (kept r header).map Column.declaredName ↔ ∃ d ∈ fresh r header, d.declaredName = n := by
  have h : ∀ l : List Column, (∃ d ∈ l, d.declaredName = n) ↔ (l.find? fun c => c.declaredName = n).isSome = true := by
    intro l
    simp [List.find?_isSome]
  rw [List.mem_map, h, h, find?_kept]

theorem pairwise_array {c : Column} (hi : c.isIndexed = true) {l : List Column} :
    (∀ d ∈ l.filter fun d => ! (d.isIndexed && decide (d.fieldName = c.fieldName)), d.declaredName ≠ c.declaredName) ∧
      (l.filter fun d => ! (d.isIndexed && decide (d.fieldName = c.fieldName))).Pairwise OneArray ↔
    (∀ d ∈ l, OneArray c d) ∧ l.Pairwise OneArray := by
  have hsame : ∀ d : Column, (! (d.isIndexed && decide (d.fieldName = c.fieldName))) = true ∨
      d.isIndexed = true ∧ d.fieldName = c.fieldName := by
    intro d
    by_cases hd : d.fieldName = c.fieldName <;> cases hx : d.isIndexed <;> simp [hd]
  constructor
  · intro h
    obtain ⟨hne, hp⟩ := h
    have hone : ∀ d ∈ l, d.declaredName = c.declaredName → d.isIndexed = true ∧ d.fieldName = c.fieldName := by
      intro d hd he
      exact (hsame d).resolve_left fun hx => hne d (List.mem_filter.mpr ⟨hd, hx⟩) he
    refine ⟨fun d hd he => ?_, ?_⟩
    · obtain ⟨h1, h2⟩ := hone d hd he.symm
      exact ⟨hi, h1, h2.symm⟩
    · rw [List.pairwise_filter] at hp
      apply hp.imp_of_mem
      intro a b ha hb hab he
      rcases hsame a with hx | ⟨h1, h2⟩
      · rcases hsame b with hy | ⟨h3, h4⟩
        · exact hab hx hy he
        · obtain ⟨h5, h6⟩ := hone a ha (he.trans (declaredName_of_indexed h4))
          exact ⟨h5, h3, h6.trans h4.symm⟩
      · obtain ⟨h3, h4⟩ := hone b hb (he.symm.trans (declaredName_of_indexed h2))
        exact ⟨h1, h3, h2.trans h4.symm⟩
  · intro h
    obtain ⟨hone, hp⟩ := h
    refine ⟨fun d hd he => ?_, hp.filter _⟩
    obtain ⟨hd, hx⟩ := List.mem_filter.mp hd
    obtain ⟨-, h1, h2⟩ := hone d hd he.symm
    simp [h1, h2] at hx

theorem nodup_kept : ∀ {header : List Column} (r : RepeatedNameNow),
    ((kept r header).map Column.declaredName).Nodup ↔ (fresh r header).Pairwise OneArray
  | [], r => by simp [kept, fresh, defining]
  | c :: header, r => by
    cases kept_cases r c header with
    | skip hk hf => rw [hk, hf, nodup_kept r]
    | single r' hk hf hi =>
      rw [hk, hf, List.map_cons, List.nodup_cons, List.pairwise_cons, nodup_kept r', mem_kept_iff]
      have hone : ∀ d, OneArray c d ↔ d.declaredName ≠ c.declaredName := by
        intro d
        simp [OneArray, hi, ne_comm]
      simp [hone]
    | array r' hk hf hi hr =>
      rw [hk, hf, List.map_cons, List.nodup_cons, List.pairwise_cons, nodup_kept r', mem_kept_iff, hr, ← pairwise_array hi]
      simp

/-! ## The declarations of a header -/

theorem splitOn_head (a : Char) : ∀ s : Str, (s.splitOn a).getD 0 [] = s.takeWhile (· ≠ a)
  | [] => by simp
  | b :: s => by
    rw [List.splitOn_cons_eq_if_modifyHead, List.takeWhile_cons]
    by_cases h : b = a
    · simp [h]
    · obtain ⟨l, ls, hs⟩ := List.exists_cons_of_ne_nil (List.splitOn_ne_nil a s)
      have ih := splitOn_head a s
      rw [hs] at ih
      simpa [h, hs] using ih

theorem Declares.eq {c : Column} {d : Declaration} (h : Declares c d) :
    d.fieldName = c.lineName ∧ d.fieldRule = c.protoRule ∧ d.fieldType = c.declaredType ∧
      d.default = c.declaredDefault := by
  obtain ⟨i, rfl⟩ := h
  unfold Column.declaredType Column.declaredDefault Column.lineName declaration
  by_cases hd : hasDefault c.fieldName
  · simp only [hd, if_true, splitOn_head, and_self]
  · simp only [hd, Bool.false_eq_true, if_false]
    split_ifs <;> exact ⟨rfl, rfl, rfl, rfl⟩

theorem mem_inScope {c : Column} : ∀ {after : Bool} {header : List Column},
    c ∈ defining after header ∨ c ∈ overlooked after header ↔ c ∈ header ∧ c.inScope = true
  | _, [] => by simp [defining, overlooked]
  | after, d :: header => by
    unfold defining overlooked
    by_cases hd : d.inScope
    · have ih : ∀ b, c ∈ defining b header ∨ c ∈ overlooked b header ↔ c ∈ header ∧ c.inScope = true :=
        fun b => mem_inScope
      have hmem : c = d ∨ c ∈ header ∧ c.inScope = true ↔ c ∈ d :: header ∧ c.inScope = true := by
        rw [List.mem_cons, or_and_right]
        refine or_congr_left ⟨fun h => ⟨h, h ▸ hd⟩, And.left⟩
      by_cases hi : d.isIndexed
      · cases after with
        | true =>
          simp only [hd, hi, not_true_eq_false, if_false, if_true, List.mem_cons]
          rw [or_left_comm, ih, hmem, List.mem_cons]
        | false =>
          simp only [hd, hi, not_true_eq_false, Bool.false_eq_true, if_false, if_true, List.mem_cons]
          rw [or_assoc, ih, hmem, List.mem_cons]
      · simp only [hd, hi, not_true_eq_false, Bool.false_eq_true, if_false, List.mem_cons]
        rw [or_assoc, ih, hmem, List.mem_cons]
    · simp only [hd, Bool.false_eq_true, not_false_eq_true, if_true]
      rw [mem_inScope, List.mem_cons, or_and_right]
      refine (or_iff_right ?_).symm
      intro h
      exact hd (h.1 ▸ h.2)

theorem fresh_dict (header : List Column) : fresh (.dict []) header = defining false header := by
  simp [fresh, RepeatedNameNow.after, RepeatedNameNow.has, isIn]

/-- Each name is declared once: that of each overlooked column by another, and no other twice. -/
theorem declaredOnce_iff {header : List Column} :
    (∀ c ∈ header, c.inScope → ((kept (.dict []) header).map Column.declaredName).count c.declaredName = 1) ↔
      (∀ c ∈ overlooked false header, ∃ d ∈ defining false header, d.declaredName = c.declaredName) ∧
        (defining false header).Pairwise OneArray := by
  have hmem : ∀ {n}, n ∈ (kept (.dict []) header).map Column.declaredName ↔
      ∃ d ∈ defining false header, d.declaredName = n := by
    intro n
    rw [mem_kept_iff, fresh_dict]
  rw [← fresh_dict, ← nodup_kept, fresh_dict, List.nodup_iff_count_eq_one]
  constructor
  · intro h
    refine ⟨fun c hc => ?_, fun n hn => ?_⟩
    · obtain ⟨hc, hs⟩ := mem_inScope.mp (.inr hc)
      exact hmem.mp (List.count_pos_iff.mp (by rw [h c hc hs]; exact Nat.one_pos))
    · obtain ⟨d, hd, rfl⟩ := hmem.mp hn
      obtain ⟨hd, hs⟩ := mem_inScope.mp (.inl hd)
      exact h d hd hs
  · intro h c hc hs
    obtain ⟨ho, hcount⟩ := h
    apply hcount
    rcases mem_inScope.mpr ⟨hc, hs⟩ with hd | hd
    · exact hmem.mpr ⟨c, hd, rfl⟩
    · exact hmem.mpr (ho c hd)

theorem interpreted_of_inside {header : List Column} (h : Inside none header) :
    ∃ ds, SheetInterpreter.interpreted header = .ok ds ∧ List.Forall₂ Declares (kept (.dict []) header) ds := by
  obtain ⟨s', ds, hf, hout, hds⟩ := SheetInterpreter.laysOut (s := {}) h
  refine ⟨ds, ?_, hds⟩
  unfold SheetInterpreter.interpreted
  rw [hf, Except.ok_bind, hout]
  rfl

theorem interpreted_ok {header : List Column} {ds : List Declaration}
    (h : SheetInterpreter.interpreted header = .ok ds) :
    Inside none header ∧ List.Forall₂ Declares (kept (.dict []) header) ds := by
  obtain ⟨s', hf, -⟩ := Except.bind_eq_ok.mp h
  have hi : Inside none header := SheetInterpreter.inside_of_ok hf
  obtain ⟨ds', h', hds⟩ := interpreted_of_inside hi
  rw [h] at h'
  obtain rfl := Except.ok.inj h'
  exact ⟨hi, hds⟩

/-! ## The fields of the message -/

/-- A field of the message, as protoc makes it of a column. -/
structure IsField (protoc : Protoc) (c : Column) (f : Declaration) : Prop where
  readable : Readable protoc c
  name : c.declaredName = some f.fieldName
  rule : f.fieldRule = c.protoRule
  type : f.fieldType = c.declaredType

theorem protoRule_eq_optional {c : Column} : c.protoRule = .optional ↔ c.isArray = false := by
  unfold Column.protoRule
  cases c.isArray <;> simp

section
variable {protoc : Protoc}

theorem isField_of_readLine {c : Column} {d f : Declaration} (hd : Declares c d) (h : protoc.readLine d = some f) :
    IsField protoc c f := by
  obtain ⟨hname, hrule, htype, hdefault⟩ := hd.eq
  unfold Protoc.readLine at h
  split at h
  · rename_i hok
    rw [htype, hrule, hdefault] at hok
    obtain ⟨name, hn, rfl⟩ := Option.map_eq_some_iff.mp h
    have hn : c.declaredName = some name := by rw [Column.declaredName, ← hname, hn]
    refine ⟨⟨by rw [hn]; rfl, hok.1, fun v hv => ?_⟩, hn, hrule, htype⟩
    exact (hok.2 v hv).imp_left protoRule_eq_optional.mp
  · cases h

theorem readLine_of_readable {c : Column} {d : Declaration} (hd : Declares c d) (h : Readable protoc c) :
    ∃ f, protoc.readLine d = some f := by
  obtain ⟨hname, hrule, htype, hdefault⟩ := hd.eq
  obtain ⟨name, hn⟩ := Option.isSome_iff_exists.mp h.name
  refine ⟨{ d with fieldName := name }, ?_⟩
  unfold Protoc.readLine
  rw [if_pos, hname]
  · rw [Column.declaredName] at hn
    rw [hn]
    rfl
  · rw [hrule, htype, hdefault]
    exact ⟨h.type, fun v hv => (h.default v hv).imp_left protoRule_eq_optional.mpr⟩

theorem isField_of_fields : ∀ {cs : List Column} {ds fields : List Declaration}, List.Forall₂ Declares cs ds →
    protoc.fields ds = some fields → List.Forall₂ (IsField protoc) cs fields
  | [], _, fields, h, hf => by
    cases h
    obtain rfl := Option.some.inj hf
    exact .nil
  | c :: cs, _, fields, h, hf => by
    obtain ⟨d, ds, hd, hds, rfl⟩ := List.forall₂_cons_left_iff.mp h
    rw [Protoc.fields, List.mapM_cons] at hf
    obtain ⟨f, hf₁, hf⟩ := Option.bind_eq_some_iff.mp hf
    obtain ⟨fs, hfs, hf⟩ := Option.bind_eq_some_iff.mp hf
    obtain rfl := Option.some.inj hf
    exact .cons (isField_of_readLine hd hf₁) (isField_of_fields hds hfs)

theorem fields_of_readable : ∀ {cs : List Column} {ds : List Declaration}, List.Forall₂ Declares cs ds →
    (∀ c ∈ cs, Readable protoc c) → ∃ fields, protoc.fields ds = some fields
  | [], _, h, _ => by
    cases h
    exact ⟨[], rfl⟩
  | c :: cs, _, h, hr => by
    obtain ⟨d, ds, hd, hds, rfl⟩ := List.forall₂_cons_left_iff.mp h
    obtain ⟨f, hf⟩ := readLine_of_readable hd (hr c List.mem_cons_self)
    obtain ⟨fs, hfs⟩ := fields_of_readable hds fun c hc => hr c (List.mem_cons_of_mem _ hc)
    refine ⟨f :: fs, ?_⟩
    rw [Protoc.fields] at hfs ⊢
    rw [List.mapM_cons, hf, hfs]
    rfl

theorem readable_kept_iff {header : List Column} (h : (defining false header).Pairwise OneArray) :
    (∀ c ∈ kept (.dict []) header, Readable protoc c) ↔ ∀ name, ∀ c ∈ firstOf header name, Readable protoc c := by
  have hfind : ∀ name, (kept (.dict []) header).find? (fun c => c.declaredName = name) = firstOf header name := by
    intro name
    rw [find?_kept, fresh_dict, firstOf]
  have hnd : ((kept (.dict []) header).map Column.declaredName).Nodup := by
    rw [nodup_kept, fresh_dict]
    exact h
  constructor
  · intro hk name c hc
    rw [← hfind] at hc
    exact hk c (List.mem_of_find?_eq_some hc)
  · intro hf c hc
    have hsome : ((kept (.dict []) header).find? fun d => d.declaredName = c.declaredName).isSome :=
      List.find?_isSome.mpr ⟨c, hc, by simp⟩
    obtain ⟨d, hd⟩ := Option.isSome_iff_exists.mp hsome
    have hname : d.declaredName = c.declaredName := by simpa using List.find?_some hd
    obtain rfl := List.inj_on_of_nodup_map hnd (List.mem_of_find?_eq_some hd) hc hname
    exact hf _ d (by rw [← hfind]; exact hd)

theorem count_fields {cs : List Column} {fields : List Declaration} (h : List.Forall₂ (IsField protoc) cs fields)
    (name : Str) : (cs.map Column.declaredName).count (some name) = (fields.map Declaration.fieldName).count name := by
  have hmap : fields.map (fun f => some f.fieldName) = cs.map Column.declaredName :=
    h.map_eq fun _ _ hf => hf.name.symm
  rw [← hmap, List.count, List.count, List.countP_map, List.countP_map]
  apply List.countP_congr
  simp

/-- The header is in order exactly when the interpreter finishes, and its message has each field once. -/
theorem headerOk_iff {header : List Column} : HeaderOk protoc header ↔
    ∃ ds fields, SheetInterpreter.interpreted header = .ok ds ∧ protoc.fields ds = some fields ∧
      ∀ c ∈ header, c.inScope → ∃ name ∈ c.declaredName, (fields.map Declaration.fieldName).count name = 1 := by
  constructor
  · intro h
    obtain ⟨ds, hi, hds⟩ := interpreted_of_inside h.inside
    have hread := (readable_kept_iff h.distinct).mpr h.readable
    obtain ⟨fields, hf⟩ := fields_of_readable hds hread
    refine ⟨ds, fields, hi, hf, fun c hc hs => ?_⟩
    have hcount := declaredOnce_iff.mpr ⟨h.overlooked, h.distinct⟩ c hc hs
    have hmem : c.declaredName ∈ (kept (.dict []) header).map Column.declaredName :=
      List.count_pos_iff.mp (by rw [hcount]; exact Nat.one_pos)
    obtain ⟨k, hk, hn⟩ := List.mem_map.mp hmem
    obtain ⟨name, hname⟩ := Option.isSome_iff_exists.mp (hn ▸ (hread k hk).name)
    refine ⟨name, hname, ?_⟩
    rw [← count_fields (isField_of_fields hds hf), ← hname]
    exact hcount
  · intro h
    obtain ⟨ds, fields, hi, hf, hc⟩ := h
    obtain ⟨hinside, hds⟩ := interpreted_ok hi
    have hfields := isField_of_fields hds hf
    have honce : ∀ c ∈ header, c.inScope →
        ((kept (.dict []) header).map Column.declaredName).count c.declaredName = 1 := by
      intro c hm hs
      obtain ⟨name, hname, hcount⟩ := hc c hm hs
      rw [hname, count_fields hfields, hcount]
    obtain ⟨ho, hd⟩ := declaredOnce_iff.mp honce
    refine ⟨hinside, ho, hd, (readable_kept_iff hd).mp fun c hm => ?_⟩
    obtain ⟨f, -, hcf⟩ := hfields.exists_right c hm
    exact hcf.readable

end

/-! ## Names that protoc leaves as they are -/

theorem uncomment_self : ∀ {s : Str}, '/' ∉ s → uncomment .text s = some s
  | [], _ => rfl
  | a :: s, h => by
    rw [List.mem_cons, not_or] at h
    rw [uncomment, uncomment_self h.2]
    · rfl
    · exact fun _ ha => absurd ha.symm h.1
    · exact fun _ ha => absurd ha.symm h.1

theorem strip_self {s : Str} (h : ∀ a ∈ s, isBlank a = false) : strip s = s := by
  have hdrop : ∀ {l : Str}, (∀ a ∈ l, isBlank a = false) → l.dropWhile isBlank = l := by
    intro l hl
    cases l with
    | nil => rfl
    | cons a l => rw [List.dropWhile_cons_of_neg (by simp [hl a])]
  unfold strip
  rw [hdrop h, hdrop (fun a ha => h a (List.mem_reverse.mp ha)), List.reverse_reverse]

theorem isAlphanumeric_of_isIdentifier {s : Str} (h : isIdentifier s = true) : ∀ a ∈ s, isAlphanumeric a = true := by
  cases s with
  | nil => simp [isIdentifier] at h
  | cons b s =>
    unfold isIdentifier isLetter at h
    rw [Bool.and_eq_true, List.all_eq_true] at h
    intro a ha
    rcases List.mem_cons.mp ha with rfl | ha
    · have := h.1
      unfold isAlphanumeric Char.isAlphanum
      simp only [Bool.or_eq_true] at this ⊢
      tauto
    · exact h.2 a ha

theorem isBlank_of_isAlphanumeric {a : Char} (h : isAlphanumeric a = true) : isBlank a = false := by
  unfold isBlank
  rw [decide_eq_false_iff_not]
  intro hm
  simp only [List.mem_cons, List.not_mem_nil, or_false] at hm
  rcases hm with rfl | rfl | rfl | rfl | rfl | rfl <;> exact absurd h (by decide)

theorem consumeIdentifier_self {s : Str} (h : isIdentifier s = true) : consumeIdentifier s = some s := by
  have hall := isAlphanumeric_of_isIdentifier h
  have hslash : '/' ∉ s := fun hm => absurd (hall _ hm) (by decide)
  have hblank : ∀ a ∈ s, isBlank a = false := fun a ha => isBlank_of_isAlphanumeric (hall a ha)
  unfold consumeIdentifier
  rw [uncomment_self hslash]
  simp only [strip_self hblank, h, if_true]

theorem isIdentifier_of_consume {s n : Str} (h : consumeIdentifier s = some n) : isIdentifier n = true := by
  unfold consumeIdentifier at h
  split at h
  · cases h
  · split at h
    · rename_i hi
      obtain rfl := Option.some.inj h
      exact hi
    · cases h

theorem declaredName_eq_some_iff {c : Column} : c.declaredName = some c.fieldName ↔ isIdentifier c.fieldName = true := by
  constructor
  · exact isIdentifier_of_consume
  · intro h
    have hno : hasDefault c.fieldName = false := by
      unfold hasDefault
      rw [decide_eq_false_iff_not]
      exact fun hd => absurd (isAlphanumeric_of_isIdentifier h _ hd.1) (by decide)
    unfold Column.declaredName Column.lineName
    rw [hno, if_neg Bool.false_ne_true]
    exact consumeIdentifier_self h

/-! ## Rows -/

section
variable {Cell F : Type} (py : Python Cell F)

theorem mem_values : ∀ {cells : List (Column × Cell)} {x : Column × Option (Value F)},
    x ∈ DataParser.values py cells → (∃ cell, (x.1, cell) ∈ cells) ∧ x.1.inScope = true
  | [], _, h => by simp [DataParser.values] at h
  | (c, cell) :: cells, x, h => by
    unfold DataParser.values at h
    cases hv : DataParser.fieldValue py c cell with
    | error e =>
      rw [hv] at h
      dsimp only at h
      split at h
      · obtain rfl := List.mem_singleton.mp h
        refine ⟨⟨cell, List.mem_cons_self⟩, ?_⟩
        by_contra hs
        simp [DataParser.fieldValue, hs] at hv
      · simp at h
    | ok o =>
      have hrest : x ∈ DataParser.values py cells → (∃ cell', (x.1, cell') ∈ (c, cell) :: cells) ∧ x.1.inScope = true := by
        intro hx
        obtain ⟨⟨cell', hm⟩, hs⟩ := mem_values hx
        exact ⟨⟨cell', List.mem_cons_of_mem _ hm⟩, hs⟩
      cases o with
      | none =>
        rw [hv] at h
        exact hrest h
      | some v =>
        rw [hv] at h
        rcases List.mem_cons.mp h with rfl | h
        · refine ⟨⟨cell, List.mem_cons_self⟩, ?_⟩
          by_contra hs
          simp [DataParser.fieldValue, hs] at hv
        · exact hrest h

theorem mem_header {header : List Column} {rows : List (List Cell)} {x : Column × Option (Value F)}
    (h : x ∈ DataParser.values py (DataParser.cells py header rows)) : x.1 ∈ header ∧ x.1.inScope = true := by
  obtain ⟨⟨cell, hm⟩, hs⟩ := mem_values py h
  obtain ⟨row, -, hz⟩ := List.mem_flatMap.mp hm
  exact ⟨(List.of_mem_zip hz).1, hs⟩

theorem protoRule_eq_iff {c d : Column} : c.protoRule = d.protoRule ↔ c.isArray = d.isArray := by
  unfold Column.protoRule
  cases c.isArray <;> cases d.isArray <;> simp

/-- Some field takes what is set, or the column is not to be set so. -/
theorem accepts_iff {protoc : Protoc} {header : List Column} (h : HeaderOk protoc header) {fields : List Declaration}
    (hfields : List.Forall₂ (IsField protoc) (kept (.dict []) header) fields) {c : Column} (hc : c ∈ header)
    (hs : c.inScope = true) (o : Option (Value F)) :
    (∃ d ∈ fields, d.Accepts { protoRule := c.protoRule, fieldName := c.fieldName, value := o }) ↔
      isIdentifier c.fieldName = true ∧
        ∀ d ∈ firstOf header c.declaredName, d.isArray = c.isArray ∧ ∀ v ∈ o, Takes d.declaredType v := by
  have hfind : (kept (.dict []) header).find? (fun d => d.declaredName = c.declaredName) = firstOf header c.declaredName := by
    rw [find?_kept, fresh_dict, firstOf]
  rw [← hfind]
  have hnd : ((kept (.dict []) header).map Column.declaredName).Nodup := by
    rw [nodup_kept, fresh_dict]
    exact h.distinct
  constructor
  · intro ha
    obtain ⟨f, hf, ha⟩ := ha
    obtain ⟨hname, hrule, htakes⟩ := ha
    obtain ⟨k, hk, hkf⟩ := hfields.exists_left f hf
    have hkn : k.declaredName = some c.fieldName := hkf.name.trans (congrArg some hname)
    have hid : isIdentifier c.fieldName = true := isIdentifier_of_consume hkn
    refine ⟨hid, fun d hd => ?_⟩
    have hdn : d.declaredName = c.declaredName := by simpa using List.find?_some hd
    obtain rfl : k = d := by
      apply List.inj_on_of_nodup_map hnd hk (List.mem_of_find?_eq_some hd)
      rw [hkn, hdn, declaredName_eq_some_iff.mpr hid]
    exact ⟨protoRule_eq_iff.mp (hkf.rule.symm.trans hrule), hkf.type ▸ htakes⟩
  · intro ha
    obtain ⟨hid, ha⟩ := ha
    have hcount := declaredOnce_iff.mpr ⟨h.overlooked, h.distinct⟩ c hc hs
    have hmem : c.declaredName ∈ (kept (.dict []) header).map Column.declaredName := by
      apply List.count_pos_iff.mp
      rw [hcount]
      exact Nat.one_pos
    obtain ⟨k₀, hk₀, hn₀⟩ := List.mem_map.mp hmem
    have hsome : ((kept (.dict []) header).find? fun d => d.declaredName = c.declaredName).isSome :=
      List.find?_isSome.mpr ⟨k₀, hk₀, by simpa using hn₀⟩
    obtain ⟨k, hk⟩ := Option.isSome_iff_exists.mp hsome
    obtain ⟨harr, htakes⟩ := ha k hk
    obtain ⟨f, hf, hkf⟩ := hfields.exists_right k (List.mem_of_find?_eq_some hk)
    have hkn : k.declaredName = c.declaredName := by simpa using List.find?_some hk
    refine ⟨f, hf, ?_, ?_, ?_⟩
    · apply Option.some.inj
      rw [← hkf.name, hkn, declaredName_eq_some_iff.mpr hid]
    · rw [hkf.rule]
      exact protoRule_eq_iff.mpr harr
    · rw [hkf.type]
      exact htakes

theorem rowsOk_iff {protoc : Protoc} {header : List Column} (h : HeaderOk protoc header) {fields : List Declaration}
    (hfields : List.Forall₂ (IsField protoc) (kept (.dict []) header) fields) {rows : List (List Cell)} :
    (∀ w ∈ DataParser.parse py header rows, ∃ d ∈ fields, d.Accepts w) ↔ RowsOk py header rows := by
  unfold DataParser.parse
  rw [List.forall_mem_map]
  apply forall₂_congr
  intro x hx
  obtain ⟨hc, hs⟩ := mem_header py hx
  exact accepts_iff h hfields hc hs x.2

/-- The two walkers agree on a sheet exactly when its header is in order and its rows fit. -/
theorem walkers_agree_iff (protoc : Protoc) (header : List Column) (rows : List (List Cell)) :
    Agree protoc py header rows ↔ HeaderOk protoc header ∧ RowsOk py header rows := by
  constructor
  · intro h
    obtain ⟨ds, fields, hi, hf, honce, hrows⟩ := h
    have hok : HeaderOk protoc header := headerOk_iff.mpr ⟨ds, fields, hi, hf, honce⟩
    exact ⟨hok, (rowsOk_iff py hok (isField_of_fields (interpreted_ok hi).2 hf)).mp hrows⟩
  · intro h
    obtain ⟨hok, hrows⟩ := h
    obtain ⟨ds, fields, hi, hf, honce⟩ := headerOk_iff.mp hok
    refine ⟨ds, fields, hi, hf, honce, ?_⟩
    exact (rowsOk_iff py hok (isField_of_fields (interpreted_ok hi).2 hf)).mpr hrows

end

/-- Python on a sheet of whole numbers. -/
def wholeNumbers : Python Int Int where
  str n := (toString n).toList
  int := some
  float := some
  floatOfInt := some
  floatOfStr _ := none
  intOfFloat := some
  mktime _ := none
  duration _ := none

/-- An array with an index comes behind one without. -/
def twoArrays : List Column :=
  [{ name := "b", scope := "all", rule := "array_int32" }, { name := "a[0]", scope := "all", rule := "array_int32" }]

theorem twoArrays_disagree : SheetInterpreter.interpreted twoArrays = .error .typeError ∧
    ∀ protoc, ¬ Agree protoc wholeNumbers twoArrays [] := by
  have h : SheetInterpreter.interpreted twoArrays = .error .typeError := by decide
  refine ⟨h, fun protoc ha => ?_⟩
  obtain ⟨ds, fields, hi, -⟩ := ha
  rw [h] at hi
  cases hi

-- with a blank behind the name the field is declared under one name and set under another
example : consumeIdentifier ['i', 'd', ' '] = some ['i', 'd'] ∧
    (DataParser.parse wholeNumbers [{ name := "id ", scope := "all", rule := "int32" }] [[1]]).map Write.fieldName =
      [['i', 'd', ' ']] := by decide

end GlobalServer.Excel

import GlobalServer.Thirdparty.RedisReader

/-!
# The parser on any bytes

Whatever is fed, the parser stays in its buffer and in its nine tasks, and what
it makes has as many elements as it says, as long as no line announces an array
of fewer than `-1` elements, or of so many that an `int` does not hold them.
-/

namespace GlobalServer.RedisReader

open Bytes

/-- An array has the elements that it says it has, and so have those. -/
inductive Obj.WF : Obj → Prop
  | string (type : Kind) (str : List UInt8) : WF (.string type str)
  | integer (integer : Int) : WF (.integer integer)
  | nil : WF .nil
  | array (element : List Obj) : (∀ x ∈ element, WF x) → WF (.array element.length element)

/-- Every task but the last is at the first element of the array around it that is not complete. -/
inductive Stacked : List Task → Prop
  | nil : Stacked []
  | root (t : Task) : Stacked [t]
  | child {cur prv : Task} {rstack : List Task} : prv.type = some .array → cur.idx = prv.done.length →
      (prv.done.length : Int) < prv.elements → (∀ x ∈ prv.done, x.WF) → Stacked (prv :: rstack) →
      Stacked (cur :: prv :: rstack)

theorem Stacked.head {cur cur' : Task} {rstack : List Task} (h : Stacked (cur :: rstack)) (hi : cur'.idx = cur.idx) :
    Stacked (cur' :: rstack) := by
  cases h with
  | root => exact .root cur'
  | child h1 h2 h3 h4 h5 => exact .child h1 (hi.trans h2) h3 h4 h5

theorem Stacked.storable {rstack : List Task} (h : Stacked rstack) : storable rstack = true := by
  cases h with
  | nil => rfl
  | root => rfl
  | @child cur prv rstack h1 h2 h3 h4 h5 =>
    show decide (0 ≤ cur.idx ∧ cur.idx < prv.elements) = true
    rw [h2, decide_eq_true_eq]
    omega

theorem Stacked.moveToNextTask {rstack : List Task} (h : Stacked rstack) {x : Obj} (hx : x.WF) :
    ∃ rstack' root, moveToNextTask x rstack = .ok (rstack', root) ∧ Stacked rstack' ∧
      rstack'.length ≤ rstack.length ∧ ∀ y, root = some y → y.WF := by
  induction h generalizing x with
  | nil => exact ⟨[], none, rfl, .nil, Nat.le_refl 0, by simp⟩
  | root t => exact ⟨[], some x, rfl, .nil, Nat.zero_le 1, by rintro y ⟨⟩; exact hx⟩
  | @child cur prv rstack h1 h2 h3 h4 h5 ih =>
    have hall : ∀ y ∈ prv.done ++ [x], y.WF := by
      intro y hy
      rw [List.mem_append, List.mem_singleton] at hy
      rcases hy with hy | rfl
      · exact h4 y hy
      · exact hx
    rw [RedisReader.moveToNextTask, if_pos (Stacked.child h1 h2 h3 h4 h5).storable]
    split
    · rename_i hlast
      have hlen : prv.elements.toNat = (prv.done ++ [x]).length := by
        rw [List.length_append, List.length_singleton]
        omega
      obtain ⟨rstack', root, hm, hs, hl, hr⟩ := ih (hlen ▸ Obj.WF.array _ hall)
      exact ⟨rstack', root, hm, hs, Nat.le_succ_of_le hl, hr⟩
    · rename_i hmore
      refine ⟨_, none, rfl, .child h1 ?_ ?_ hall (h5.head rfl), Nat.le_refl _, by simp⟩
      · show cur.idx + 1 = _
        rw [h2, List.length_append, List.length_singleton]
        rfl
      · show ((prv.done ++ [x]).length : Int) < prv.elements
        rw [List.length_append, List.length_singleton]
        omega

/-- What holds of the parser whatever it has been fed. -/
structure Safe (r : Reader) : Prop where
  pos : r.pos ≤ r.buf.length
  depth : r.rstack.length ≤ 9
  stacked : Stacked r.rstack
  reply : ∀ x, r.reply = some x → x.WF

/-- The bytes from which the current item's line would be read, if it is an array. -/
def Reader.arrayLine (r : Reader) : Option (List UInt8) :=
  match r.rstack with
  | [] => none
  | cur :: _ =>
    match cur.type with
    | some type => if type = .array then some r.rest else none
    | none =>
      match r.rest with
      | [] => none
      | byte :: s => if byte = 42 then some s else none

/-- The number of elements that the current item announces, if it announces any, is one that a reply can have. -/
def Counted (r : Reader) : Prop :=
  ∀ s n, r.arrayLine = some s → seekNewline s ≠ none → readLongLong s = .ok n → -1 ≤ n ∧ n < 2 ^ 31

/-! ## Numbers -/

theorem readDigits_ok : ∀ (s : List UInt8) (v : Int), (13 : UInt8) ∈ s → ∃ o, readDigits v s = .ok o
  | [], _, h => by simp at h
  | c :: s, v, h => by
    rw [readDigits]
    split
    · exact ⟨_, rfl⟩
    · rename_i hc
      split
      · exact readDigits_ok s _ (by simpa [Ne.symm hc] using h)
      · exact ⟨_, rfl⟩

/-- Where a line ends the number in front of it ends too. -/
theorem readLongLong_ok {s : List UInt8} {len : Nat} (h : seekNewline s = some len) : ∃ n, readLongLong s = .ok n := by
  obtain ⟨more, hs, -⟩ := Reader.seekNewline_spec h
  have hmem : (13 : UInt8) ∈ s := by rw [hs]; simp
  have map_ok : ∀ {s : List UInt8} (f : Option Int → Int), (13 : UInt8) ∈ s →
      ∃ n, (readDigits 0 s).map f = .ok n := by
    intro s f hm
    obtain ⟨o, ho⟩ := readDigits_ok s 0 hm
    rw [ho]
    exact ⟨_, rfl⟩
  cases s with
  | nil => cases hmem
  | cons c s =>
    unfold readLongLong
    by_cases h45 : c = 45
    · subst h45
      simp only [if_true]
      exact map_ok _ (by simpa using hmem)
    · by_cases h43 : c = 43
      · subst h43
        simp only [h45, if_true, if_false]
        exact map_ok _ (by simpa using hmem)
      · simp only [h45, h43, if_false]
        exact map_ok _ hmem

/-! ## Items -/

section
variable {r : Reader}

theorem Safe.complete (h : Safe r) {n : Nat} (hn : r.pos + n ≤ r.buf.length) {x : Obj} (hx : x.WF) :
    ∃ r', ({ r with pos := r.pos + n } : Reader).complete x = .ok (r', true) ∧ Safe r' := by
  obtain ⟨rstack', root, hm, hs, hl, hr⟩ := h.stacked.moveToNextTask hx
  refine ⟨{ r with pos := r.pos + n, rstack := rstack', reply := root.or r.reply }, ?_, hn, Nat.le_trans hl h.depth, hs, ?_⟩
  · rw [Reader.complete]
    simp only [hm, Except.ok_bind]
  · intro y hy
    cases root with
    | none => exact h.reply y hy
    | some z => exact hr y hy

theorem Safe.setError (type : Err) (str : List UInt8) : Safe (r.setError type str) :=
  ⟨Nat.zero_le _, Nat.zero_le _, .nil, by rintro x ⟨⟩⟩

theorem readLine_found {len : Nat} (h : seekNewline r.rest = some len) :
    r.readLine = some (r.rest, len, { r with pos := r.pos + (len + 2) }) ∧ r.pos + (len + 2) ≤ r.buf.length ∧
      ∃ n, readLongLong r.rest = .ok n := by
  refine ⟨?_, Reader.line_le h, readLongLong_ok h⟩
  rw [Reader.readLine, h]
  rfl

theorem Safe.processLineItem (h : Safe r) (type : Kind) : ∃ r' ok, r.processLineItem type = .ok (r', ok) ∧ Safe r' := by
  cases hseek : seekNewline r.rest with
  | none =>
    refine ⟨r, false, ?_, h⟩
    rw [Reader.processLineItem, Reader.readLine, hseek]
    rfl
  | some len =>
    obtain ⟨hread, hle, n, hn⟩ := readLine_found hseek
    rw [Reader.processLineItem, hread]
    simp only [hn, Except.ok_bind]
    split
    · obtain ⟨r', hc, hs⟩ := h.complete hle (.integer n)
      exact ⟨r', true, hc, hs⟩
    · obtain ⟨r', hc, hs⟩ := h.complete hle (.string type (r.rest.take len))
      exact ⟨r', true, hc, hs⟩

theorem Safe.processBulkItem (h : Safe r) : ∃ r' ok, r.processBulkItem = .ok (r', ok) ∧ Safe r' := by
  rw [Reader.processBulkItem]
  cases hseek : seekNewline r.rest with
  | none => exact ⟨r, false, rfl, h⟩
  | some len =>
    obtain ⟨-, hle, n, hn⟩ := readLine_found hseek
    simp only [hn, Except.ok_bind]
    split
    · obtain ⟨r', hc, hs⟩ := h.complete hle .nil
      exact ⟨r', true, hc, hs⟩
    · split
      · rename_i hfit
        obtain ⟨r', hc, hs⟩ := h.complete hfit (.string .string _)
        exact ⟨r', true, hc, hs⟩
      · exact ⟨r, false, rfl, h⟩

theorem Safe.processMultiBulkItem (h : Safe r) {cur : Task} {rstack : List Task} (hrs : r.rstack = cur :: rstack)
    (ht : cur.type = some .array)
    (hc : ∀ n, seekNewline r.rest ≠ none → readLongLong r.rest = .ok n → -1 ≤ n ∧ n < 2 ^ 31) :
    ∃ r' ok, r.processMultiBulkItem = .ok (r', ok) ∧ Safe r' := by
  rw [Reader.processMultiBulkItem]
  split
  · exact ⟨_, false, rfl, .setError _ _⟩
  · rename_i hd
    cases hseek : seekNewline r.rest with
    | none =>
      refine ⟨r, false, ?_, h⟩
      rw [Reader.readLine, hseek]
      rfl
    | some len =>
      obtain ⟨hread, hle, n, hn⟩ := readLine_found hseek
      obtain ⟨h1, h2⟩ := hc n (by rw [hseek]; simp) hn
      have hdepth := h.depth
      rw [hrs] at hd hdepth
      rw [hread]
      simp only [hn, Except.ok_bind]
      split
      · obtain ⟨r', hc, hs⟩ := h.complete hle .nil
        exact ⟨r', true, hc, hs⟩
      · split
        · rename_i hpos
          have hst := h.stacked
          rw [hrs] at hst
          have hi : i32 n = n := i32_of_range (by omega) h2
          rw [hrs]
          simp only [hst.storable, if_true]
          refine ⟨_, true, rfl, hle, ?_, .child ht rfl ?_ (by simp) (hst.head rfl), h.reply⟩
          · show rstack.length + 2 ≤ 9
            rw [List.length_cons] at hd hdepth
            omega
          · show ((0 : Nat) : Int) < i32 n
            rw [hi]
            exact hpos
        · rename_i hne hpos
          have hz : n = 0 := by omega
          subst hz
          obtain ⟨r', hc, hs⟩ := h.complete hle (.array [] (by simp))
          exact ⟨r', true, hc, hs⟩

theorem Safe.processItem (h : Safe r) (hc : Counted r) : ∃ r' ok, r.processItem = .ok (r', ok) ∧ Safe r' := by
  unfold Reader.processItem
  unfold Counted Reader.arrayLine at hc
  cases hrs : r.rstack with
  | nil => exact ⟨r, false, rfl, h⟩
  | cons cur rstack =>
    have hst := h.stacked
    have hdepth := h.depth
    rw [hrs] at hc hst hdepth
    have typed : ∀ (r₁ : Reader) (cur₁ : Task) (type : Kind), Safe r₁ → r₁.rstack = cur₁ :: rstack →
        cur₁.type = some type → (type = .array →
          ∀ n, seekNewline r₁.rest ≠ none → readLongLong r₁.rest = .ok n → -1 ≤ n ∧ n < 2 ^ 31) →
        ∃ r' ok, r₁.processTyped type = .ok (r', ok) ∧ Safe r' := by
      intro r₁ cur₁ type h₁ hrs₁ ht hn
      cases type with
      | string => exact h₁.processBulkItem
      | array => exact h₁.processMultiBulkItem hrs₁ ht (hn rfl)
      | integer => exact h₁.processLineItem _
      | status => exact h₁.processLineItem _
      | error => exact h₁.processLineItem _
    cases ht : cur.type with
    | some type =>
      simp only [ht] at hc ⊢
      refine typed r cur type h hrs ht fun he n hs hn => hc r.rest n ?_ hs hn
      rw [if_pos he]
    | none =>
      simp only [ht] at hc ⊢
      cases hrest : r.rest with
      | nil => exact ⟨r, false, rfl, h⟩
      | cons byte s =>
        simp only [hrest] at hc ⊢
        have hlen := congrArg List.length hrest
        rw [Reader.rest, List.length_drop, List.length_cons] at hlen
        cases hk : Reader.kindOf byte with
        | none => exact ⟨_, false, rfl, .setError _ _⟩
        | some type =>
          have hs : r.buf.drop (r.pos + 1) = s := by
            rw [← List.drop_drop, ← Reader.rest, hrest]
            rfl
          have hpos : r.pos + 1 ≤ r.buf.length := by omega
          refine typed _ _ type ⟨hpos, hdepth, hst.head rfl, h.reply⟩ rfl rfl ?_
          intro he n hseek hn
          rw [Reader.rest] at hseek hn
          simp only [hs] at hseek hn
          refine hc s n (if_pos ?_) hseek hn
          subst he
          unfold Reader.kindOf at hk
          by_contra hne
          simp only [hne, if_false] at hk
          split at hk
          · cases hk
          · split at hk
            · cases hk
            · split at hk
              · cases hk
              · split at hk <;> cases hk

end

/-! ## Runs -/

/-- The states between two items, when every array is one that a reply can have. -/
inductive Reach : Reader → Prop
  | create : Reach Reader.create
  | feed {r : Reader} (bytes : List UInt8) : Reach r → Reach (r.feed bytes).1
  /-- `redisReaderGetReply` begins with the first task -/
  | begin {r : Reader} : Reach r → r.rstack = [] → Reach { r with rstack := [Task.fresh (-1)] }
  | item {r r' : Reader} {ok : Bool} : Reach r → Counted r → r.processItem = .ok (r', ok) → Reach r'
  | emit {r : Reader} : Reach r → Reach r.emit.1

theorem Reach.safe {r : Reader} (h : Reach r) : Safe r := by
  induction h with
  | create => exact ⟨Nat.le_refl 0, Nat.zero_le 9, .nil, by rintro x ⟨⟩⟩
  | @feed r bytes _ ih =>
    unfold Reader.feed
    split
    · exact ih
    · refine ⟨?_, ih.depth, ih.stacked, ih.reply⟩
      show r.pos ≤ (r.buf ++ bytes).length
      have := ih.pos
      rw [List.length_append]
      omega
  | begin _ _ ih => exact ⟨ih.pos, by simp, .root _, ih.reply⟩
  | item _ hc he ih =>
    obtain ⟨r₁, ok₁, he₁, hs⟩ := ih.processItem hc
    rw [he] at he₁
    cases he₁
    exact hs
  | @emit r _ ih =>
    unfold Reader.emit
    split
    · exact ih
    · dsimp only
      split
      · split
        · exact ⟨Nat.zero_le _, ih.depth, ih.stacked, by rintro x ⟨⟩⟩
        · exact ⟨Nat.zero_le _, ih.depth, ih.stacked, ih.reply⟩
      · split
        · exact ⟨ih.pos, ih.depth, ih.stacked, by rintro x ⟨⟩⟩
        · exact ih

/-- The parser at an array of two numbers, one of which has not come yet. -/
def arrayHalf : Reader :=
  { (Reader.create.feed [42, 50, 13, 10, 58, 55, 13, 10]).1 with rstack := [Task.fresh (-1)] }

/-- Behind the line of the array. -/
def arrayOpen : Reader :=
  { arrayHalf with
    pos := 4
    rstack := [Task.fresh 0, { type := some .array, elements := 2, idx := -1, done := [] }] }

/-- Behind the first number, when the other has come. -/
def arraySecond : Reader :=
  { arrayOpen with
    buf := arrayOpen.buf ++ [58, 56, 13, 10]
    pos := 8
    rstack := [Task.fresh 1, { type := some .array, elements := 2, idx := -1, done := [.integer 7] }] }

def arrayWhole : Reader :=
  { arraySecond with pos := 12, rstack := [], reply := some (.array 2 [.integer 7, .integer 8]) }

theorem reach_arrayWhole : Reach arrayWhole := by
  have hcount : Counted arrayHalf := by
    intro s n hs _ hn
    have he : s = [50, 13, 10, 58, 55, 13, 10] := (Option.some.inj hs).symm
    subst he
    have hv : readLongLong [50, 13, 10, 58, 55, 13, 10] = .ok 2 := by decide
    rw [hv] at hn
    cases hn
    decide
  have hline : arrayHalf.processItem = .ok (arrayOpen, true) := by
    have hs : seekNewline [50, 13, 10, 58, 55, 13, 10] = some 1 := by decide
    have hv : readLongLong [50, 13, 10, 58, 55, 13, 10] = .ok 2 := by decide
    simp [Reader.processItem, arrayHalf, arrayOpen, Reader.rest, Reader.feed, Reader.create, Reader.kindOf,
      Reader.processTyped, Reader.processMultiBulkItem, Reader.readLine, hs, hv, storable, Task.fresh, i32, Except.ok_bind]
  have hseven : arrayOpen.processItem = .ok ({ arrayOpen with pos := 8, rstack := arraySecond.rstack }, true) := by
    have hs : seekNewline [55, 13, 10] = some 1 := by decide
    have hv : readLongLong [55, 13, 10] = .ok 7 := by decide
    simp [Reader.processItem, arrayHalf, arrayOpen, arraySecond, Reader.rest, Reader.feed, Reader.create, Reader.kindOf,
      Reader.processTyped, Reader.processLineItem, Reader.readLine, hs, hv, storable, Task.fresh, Reader.complete,
      moveToNextTask, Except.ok_bind]
  have height : arraySecond.processItem = .ok (arrayWhole, true) := by
    have hs : seekNewline [56, 13, 10] = some 1 := by decide
    have hv : readLongLong [56, 13, 10] = .ok 8 := by decide
    simp [Reader.processItem, arrayHalf, arrayOpen, arraySecond, arrayWhole, Reader.rest, Reader.feed, Reader.create,
      Reader.kindOf, Reader.processTyped, Reader.processLineItem, Reader.readLine, hs, hv, storable, Task.fresh,
      Reader.complete, moveToNextTask, Except.ok_bind]
  have hopen : Reach arrayOpen := .item (.begin (.feed _ .create) rfl) hcount hline
  have hfirst := Reach.item hopen (fun s n hs => by cases hs) hseven
  exact .item (.feed [58, 56, 13, 10] hfirst) (fun s n hs => by cases hs) height

end GlobalServer.RedisReader

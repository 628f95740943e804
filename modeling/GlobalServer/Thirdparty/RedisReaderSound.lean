import GlobalServer.Lib.Resp
import GlobalServer.Thirdparty.RedisReader

/-!
# The parser gives the replies that have been sent

`Expects` says of a task stack which replies are to come and which bytes are
left of them. `processItem` keeps it, whether the item is whole or not, and so
it does not matter how the bytes are cut.
-/

namespace GlobalServer.RedisReader

open Bytes Resp

/-! ## Lines and numbers -/

theorem i64_of_range {n : Int} (h1 : -2 ^ 63 ≤ n) (h2 : n < 2 ^ 63) : i64 n = n := by
  unfold i64; omega

theorem le_digits : ∀ (l : List UInt8) (n : Nat), n ≤ Decimal.digits n l
  | [], n => Nat.le_refl n
  | b :: l, n => by
    unfold Decimal.digits
    split
    · exact Nat.le_trans (by omega) (le_digits l _)
    · exact Nat.le_refl n

theorem readDigits_spec : ∀ {l : List UInt8} {n : Nat} (more : List UInt8), (∀ b ∈ l, Decimal.isDigit b = true) →
    Decimal.digits n l < 2 ^ 63 → readDigits n (l ++ 13 :: more) = .ok (some (Decimal.digits n l : Int))
  | [], n, more, _, _ => by simp [readDigits, Decimal.digits]
  | b :: l, n, more, hd, hl => by
    have hb := hd b (by simp)
    have hne : b ≠ 13 := by rintro rfl; cases hb
    have h48 : 48 ≤ b.toNat := by
      unfold Decimal.isDigit at hb
      simp only [Bool.decide_and, Bool.and_eq_true, decide_eq_true_eq, UInt8.le_iff_toNat_le] at hb
      exact hb.1
    have hlt := b.toNat_lt
    rw [Decimal.digits, if_pos hb] at hl
    have hge := le_digits l (10 * n + (b.toNat - 48))
    have hstep : i64 (i64 ((n : Int) * 10) + ((b.toNat : Int) - 48)) = ((10 * n + (b.toNat - 48) : Nat) : Int) := by
      rw [i64_of_range (n := (n : Int) * 10) (by omega) (by omega), i64_of_range (by omega) (by omega)]
      omega
    rw [List.cons_append, readDigits, if_neg hne, if_pos hb, Decimal.digits, if_pos hb, hstep]
    exact readDigits_spec more (fun c hc => hd c (List.mem_cons_of_mem b hc)) hl

theorem readLongLong_ofInt {n : Int} (h1 : -2 ^ 63 < n) (h2 : n < 2 ^ 63) (more : List UInt8) :
    readLongLong (ofInt n ++ 13 :: more) = .ok n := by
  have hd : ∀ b ∈ Decimal.ofNat n.natAbs, Decimal.isDigit b = true := fun b => Decimal.isDigit_of_mem_ofNat
  have hv := readDigits_spec (n := 0) more hd (by rw [Decimal.digits_ofNat]; omega)
  rw [Decimal.digits_ofNat, Nat.cast_zero] at hv
  unfold ofInt
  split
  · rename_i hneg
    rw [List.cons_append, readLongLong]
    simp only [minus, if_true, hv, Except.map]
    rw [i64_of_range (by omega) (by omega)]
    congr 1
    omega
  · obtain ⟨b, l, hl⟩ := List.exists_cons_of_ne_nil (Decimal.ofNat_ne_nil n.natAbs)
    have hb : Decimal.isDigit b = true := hd b (by rw [hl]; exact List.mem_cons_self)
    have h45 : b ≠ 45 := by rintro rfl; cases hb
    have h43 : b ≠ 43 := by rintro rfl; cases hb
    rw [hl] at hv ⊢
    rw [List.cons_append] at hv ⊢
    rw [readLongLong]
    simp only [h45, h43, if_false, hv, Except.map]
    rw [i64_of_range (by omega) (by omega)]
    congr 1
    omega

theorem readLongLong_ofNat {n : Nat} (h : n < 2 ^ 63) (more : List UInt8) :
    readLongLong (Decimal.ofNat n ++ 13 :: more) = .ok (n : Int) := by
  have := readLongLong_ofInt (n := (n : Int)) (by omega) (by omega) more
  rwa [ofInt, if_neg (by omega), Int.natAbs_natCast] at this

theorem lf_notMem_ofInt (n : Int) : lf ∉ ofInt n := by
  have hd : lf ∉ Decimal.ofNat n.natAbs := by
    intro h
    cases Decimal.isDigit_of_mem_ofNat h
  unfold ofInt
  split
  · rw [List.mem_cons]
    rintro (h | h)
    · cases h
    · exact hd h
  · exact hd

/-- The first line end. -/
def lineEnd : List UInt8 → Option Nat
  | a :: b :: s => if a = 13 ∧ b = 10 then some 0 else (lineEnd (b :: s)).map (· + 1)
  | _ => none

theorem seekLoop_eq : ∀ {n : Nat} {s : List UInt8}, s.length ≤ n + 1 → n ≤ s.length → seekLoop n s = lineEnd s
  | 0, [], _, _ => rfl
  | 0, [_], _, _ => rfl
  | 0, _ :: _ :: _, h, _ => by simp at h
  | _ + 1, [], _, _ => rfl
  | _ + 1, [_], _, _ => rfl
  | n + 1, a :: b :: s, h, h' => by
    rw [List.length_cons] at h h'
    have ih := seekLoop_eq (n := n) (s := b :: s) (by omega) (by omega)
    rw [seekLoop, lineEnd, ih]
    by_cases ha : a = 13
    · by_cases hb : b = 10
      · simp [ha, hb]
      · simp [ha, hb]
    · by_cases hn : n = 0
      · -- behind the last byte there is none
        have hs : s = [] := by
          rw [List.length_cons] at h
          exact List.length_eq_zero_iff.mp (by omega)
        simp [ha, hn, hs, lineEnd]
      · simp [ha, hn]

theorem seekNewline_eq {s : List UInt8} (h : s.length < 2 ^ 31) : seekNewline s = lineEnd s := by
  unfold seekNewline
  rw [i32_of_range (by omega) (by omega)]
  exact seekLoop_eq (by omega) (by omega)

theorem lineEnd_line : ∀ {line : List UInt8} (more : List UInt8), lf ∉ line →
    lineEnd (line ++ crlf ++ more) = some line.length
  | [], more, _ => rfl
  | [a], more, h => by
    have hc : ¬ (a = 13 ∧ (13 : UInt8) = 10) := fun hc => absurd hc.2 (by decide)
    show lineEnd (a :: 13 :: 10 :: more) = some 1
    rw [lineEnd, if_neg hc]
    rfl
  | a :: b :: line, more, h => by
    have hb : b ≠ 10 := fun he => h (by rw [he]; simp [lf])
    have ih := @lineEnd_line (b :: line) more fun hm => h (List.mem_cons_of_mem a hm)
    show lineEnd (a :: b :: (line ++ crlf ++ more)) = some (line.length + 2)
    rw [lineEnd, if_neg fun hc => hb hc.2]
    rw [show b :: (line ++ crlf ++ more) = b :: line ++ crlf ++ more from rfl, ih]
    rfl

theorem seekNewline_part {line u f more : List UInt8} (hu : u.length < 2 ^ 31) (hl : lf ∉ line)
    (h : u ++ f = line ++ crlf ++ more) :
    seekNewline u = if line.length + 2 ≤ u.length then some line.length else none := by
  split
  · rename_i hle
    have hline : u = line ++ crlf ++ (u.drop (line.length + 2)) := by
      have ht := congrArg (List.take (line.length + 2)) h
      rw [List.take_append_of_le_length hle, List.take_left' (by simp [crlf])] at ht
      rw [← ht, List.take_append_drop]
    rw [seekNewline_eq hu, hline]
    exact lineEnd_line _ hl
  · rename_i hlt
    cases hs : seekNewline u with
    | none => rfl
    | some n =>
      obtain ⟨m, hm, hn⟩ := Reader.seekNewline_spec hs
      -- the line feed that it has found stands in the line, or is its end
      have hg : (line ++ crlf ++ more)[n + 1]? = some 10 := by
        have hu : u[n + 1]? = some 10 := by
          rw [hm, List.getElem?_append_right (by rw [List.length_take]; omega), List.length_take,
            Nat.min_eq_left (by omega), show n + 1 - n = 1 by omega]
          rfl
        rw [← h, List.getElem?_append_left (by omega), hu]
      rw [List.append_assoc, List.getElem?_append] at hg
      split at hg
      · exact absurd (List.mem_of_getElem? hg) hl
      · rename_i hge
        have he : n + 1 = line.length := by omega
        rw [he, Nat.sub_self] at hg
        cases hg

/-! ## The stack -/

mutual

/-- The object that is made of a reply. -/
def obj : Value → Obj
  | .status line => .string .status line
  | .error line => .string .error line
  | .integer n => .integer n
  | .bulk s => .string .string s
  | .nullBulk => .nil
  | .array l => .array l.length (objAll l)
  | .nullArray => .nil

def objAll : List Value → List Obj
  | [] => []
  | v :: l => obj v :: objAll l

end

theorem objAll_eq (l : List Value) : objAll l = l.map obj := by
  induction l with
  | nil => simp [objAll]
  | cons v l ih => rw [objAll, ih, List.map_cons]

theorem obj_array (l : List Value) : obj (.array l) = .array l.length (l.map obj) := by
  rw [obj, objAll_eq]

/-- The current task is at `x`, a part of `top`. Behind `x`, the arrays around it have these elements to come. -/
inductive Path : List Task → Value → List (List Value) → Value → Prop
  | root {t : Task} {x : Value} : Path [t] x [] x
  | child {cur prv : Task} {rstack : List Task} {x top : Value} {done ys : List Value} {ks : List (List Value)} :
      prv.done = done.map obj → prv.elements = (done.length : Int) + 1 + ys.length → cur.idx = done.length →
      Path (prv :: rstack) (.array (done ++ x :: ys)) ks top → Path (cur :: prv :: rstack) x (ys :: ks) top

theorem Path.head {cur cur' : Task} {rstack : List Task} {x top : Value} {ks : List (List Value)}
    (h : Path (cur :: rstack) x ks top) (hi : cur'.idx = cur.idx) : Path (cur' :: rstack) x ks top := by
  cases h with
  | root => exact .root
  | child hd he hx hp => exact .child hd he (hi.trans hx) hp

theorem Path.storable {rstack : List Task} {x top : Value} {ks : List (List Value)} (h : Path rstack x ks top) :
    storable rstack = true := by
  cases h with
  | root => rfl
  | child hd he hx hp =>
    rename_i cur prv rstack done ys ks
    show decide (0 ≤ cur.idx ∧ cur.idx < prv.elements) = true
    rw [hx, he, decide_eq_true_eq]
    omega

theorem Path.fits {rstack : List Task} {x top : Value} {ks : List (List Value)} (h : Path rstack x ks top)
    (ht : Within 8 top) : rstack.length ≤ 9 ∧ Within (9 - rstack.length) x ∧ ∀ y ∈ ks.flatten, ∃ d, Within d y := by
  induction h with
  | root => exact ⟨by simp, ht, by simp⟩
  | @child cur prv rstack x top done ys ks hd he hx hp ih =>
    obtain ⟨hl, hf, hk⟩ := ih ht
    obtain ⟨d, hd⟩ : ∃ d, 9 - (prv :: rstack).length = d + 1 := by
      cases hc : 9 - (prv :: rstack).length with
      | zero => rw [hc] at hf; simp [Within] at hf
      | succ d => exact ⟨d, rfl⟩
    rw [hd, within_array] at hf
    have hlen : (cur :: prv :: rstack).length = (prv :: rstack).length + 1 := rfl
    refine ⟨by omega, ?_, ?_⟩
    · rw [hlen, show 9 - ((prv :: rstack).length + 1) = d by omega]
      exact hf.2 x (by simp)
    · intro y hy
      rw [List.flatten_cons, List.mem_append] at hy
      rcases hy with hy | hy
      · exact ⟨d, hf.2 y (by simp [hy])⟩
      · exact hk y hy

/-- Where an item is complete the next one comes, or the reply is complete too. -/
theorem moveToNextTask_spec {rstack : List Task} {x top : Value} {ks : List (List Value)} (h : Path rstack x ks top) :
    (ks.flatten = [] ∧ moveToNextTask (obj x) rstack = .ok ([], some (obj top))) ∨
      ∃ rstack' idx y ks', ks.flatten = y :: List.flatten ks' ∧
        moveToNextTask (obj x) rstack = .ok (Task.fresh idx :: rstack', none) ∧
        Path (Task.fresh idx :: rstack') y ks' top := by
  induction h with
  | root => exact .inl ⟨rfl, rfl⟩
  | @child cur prv rstack x top done ys ks hd he hx hp ih =>
    have hs := (Path.child hd he hx hp).storable
    rw [moveToNextTask, if_pos hs]
    cases ys with
    | nil =>
      have hlast : cur.idx = prv.elements - 1 := by
        rw [hx, he]; simp
      have ho : Obj.array prv.elements.toNat (prv.done ++ [obj x]) = obj (.array (done ++ [x])) := by
        rw [obj_array, List.map_append, hd, he]
        simp
      rw [if_pos hlast, ho, List.flatten_cons, List.nil_append]
      exact ih
    | cons y ys =>
      have hmore : cur.idx ≠ prv.elements - 1 := by
        rw [hx, he, List.length_cons]; omega
      rw [if_neg hmore]
      have hp' : Path ({ prv with done := prv.done ++ [obj x] } :: rstack) (.array ((done ++ [x]) ++ y :: ys)) ks top := by
        rw [List.append_assoc, List.singleton_append]
        exact hp.head rfl
      refine .inr ⟨_, _, y, ys :: ks, by simp, rfl, .child ?_ ?_ ?_ hp'⟩
      · rw [List.map_append, List.map_singleton, ← hd]
      · show prv.elements = _
        rw [he, List.length_append, List.length_cons, List.length_singleton]
        omega
      · show cur.idx + 1 = _
        rw [hx, List.length_append, List.length_singleton]
        rfl

/-! ## Items -/

def kind : Value → Kind
  | .status _ => .status
  | .error _ => .error
  | .integer _ => .integer
  | .bulk _ => .string
  | .nullBulk => .string
  | .array _ => .array
  | .nullArray => .array

def line : Value → List UInt8
  | .status line => line
  | .error line => line
  | .integer n => ofInt n
  | .bulk s => Decimal.ofNat s.length
  | .nullBulk => ofInt (-1)
  | .array l => Decimal.ofNat l.length
  | .nullArray => ofInt (-1)

/-- What comes behind the line. -/
def behind : Value → List UInt8
  | .bulk s => s ++ crlf
  | .array l => encodeAll l
  | _ => []

def byte : Kind → UInt8
  | .string => 36
  | .array => 42
  | .integer => 58
  | .status => 43
  | .error => 45

theorem kindOf_byte (k : Kind) : Reader.kindOf (byte k) = some k := by
  cases k <;> rfl

theorem encode_eq (x : Value) : encode x = byte (kind x) :: (line x ++ crlf ++ behind x) := by
  cases x <;> simp [encode, byte, kind, line, behind, minus]

theorem lf_notMem_line {x : Value} {d : Nat} (h : Within d x) : lf ∉ line x := by
  have hnat : ∀ n, lf ∉ Decimal.ofNat n := by
    intro n hm
    cases Decimal.isDigit_of_mem_ofNat hm
  cases x with
  | status line => exact within_status.mp h
  | error line => exact within_error.mp h
  | integer n => exact lf_notMem_ofInt n
  | bulk s => exact hnat _
  | nullBulk => exact lf_notMem_ofInt _
  | array l => exact hnat _
  | nullArray => exact lf_notMem_ofInt _

theorem drop_of_append {u f a b : List UInt8} (h : u ++ f = a ++ b) (hl : a.length ≤ u.length) :
    u.drop a.length ++ f = b := by
  have := congrArg (List.drop a.length) h
  rwa [List.drop_append_of_le_length hl, List.drop_left' rfl] at this

/-- The reader behind an item of `top`: it is at the next one, or `top` is complete. `w` is what follows `top`. -/
inductive After (f w : List UInt8) (top : Value) (r : Reader) : Prop
  | more {idx : Int} {rstack : List Task} {y : Value} {ks : List (List Value)} :
      r.rstack = Task.fresh idx :: rstack → Path (Task.fresh idx :: rstack) y ks top →
      r.rest ++ f = encode y ++ (encodeAll ks.flatten ++ w) → r.reply = none → After f w top r
  | done : r.rstack = [] → r.reply = some (obj top) → r.rest ++ f = w → After f w top r

section
variable {r : Reader} {f w : List UInt8} {x top : Value} {ks : List (List Value)}

theorem complete_spec {n : Nat} (hr : r.reply = none) (hp : Path r.rstack x ks top)
    (hw : r.rest.drop n ++ f = encodeAll ks.flatten ++ w) :
    ∃ r', ({ r with pos := r.pos + n } : Reader).complete (obj x) = .ok (r', true) ∧ r'.buf = r.buf ∧
      r'.pos = r.pos + n ∧ r'.err = r.err ∧ After f w top r' := by
  have hrest : ({ r with pos := r.pos + n } : Reader).rest = r.rest.drop n := by
    rw [Reader.rest, Reader.rest, List.drop_drop]
  rcases moveToNextTask_spec hp with ⟨hk, hm⟩ | ⟨rstack', idx, y, ks', hk, hm, hp'⟩
  · refine ⟨{ r with pos := r.pos + n, rstack := [], reply := some (obj top) }, ?_, rfl, rfl, rfl, .done rfl rfl ?_⟩
    · rw [Reader.complete]
      simp only [hm, Except.ok_bind, hr]
      rfl
    · rw [hk, encodeAll_nil, List.nil_append] at hw
      exact hrest ▸ hw
  · refine ⟨{ r with pos := r.pos + n, rstack := Task.fresh idx :: rstack', reply := none }, ?_, rfl, rfl, rfl,
      .more rfl hp' ?_ rfl⟩
    · rw [Reader.complete]
      simp only [hm, Except.ok_bind, hr]
      rfl
    · rw [hk, encodeAll_cons, List.append_assoc] at hw
      exact hrest ▸ hw

/-- Either the item has not all come, and nothing is done, or it is read whole. -/
def Typed (r : Reader) (f w : List UInt8) (top : Value) (res : Except Fault (Reader × Bool)) : Prop :=
  (f ≠ [] ∧ res = .ok (r, false)) ∨
    ∃ r', res = .ok (r', true) ∧ r'.buf = r.buf ∧ r'.pos ≤ r.buf.length ∧ r'.err = r.err ∧ After f w top r'

section
variable (hr : r.reply = none) (hpos : r.pos ≤ r.buf.length) (hp : Path r.rstack x ks top) (hl : lf ∉ line x)
variable (hw : r.rest ++ f = line x ++ crlf ++ behind x ++ (encodeAll ks.flatten ++ w)) (hs : r.buf.length < 2 ^ 31)
include hr hpos hp hl hw hs

omit hr hpos hp in
theorem seek_item :
    seekNewline r.rest = if (line x).length + 2 ≤ r.rest.length then some (line x).length else none := by
  rw [List.append_assoc] at hw
  refine seekNewline_part ?_ hl hw
  rw [Reader.rest, List.length_drop]
  omega

omit hr hpos hp hl hs in
theorem lacks_of_lt (hlt : r.rest.length < (line x).length + 2 + (behind x).length) : f ≠ [] := by
  intro hf
  have := congrArg List.length hw
  rw [hf, List.append_nil] at this
  simp only [List.length_append, crlf, List.length_cons, List.length_nil] at this
  omega

omit hr hpos hp hl hs in
theorem rest_line (hle : (line x).length + 2 ≤ r.rest.length) :
    r.rest = line x ++ 13 :: (10 :: r.rest.drop ((line x).length + 2)) ∧
      r.rest.drop ((line x).length + 2) ++ f = behind x ++ (encodeAll ks.flatten ++ w) := by
  have hlen : (line x ++ crlf).length = (line x).length + 2 := by simp [crlf]
  have hw' : r.rest ++ f = (line x ++ crlf) ++ (behind x ++ (encodeAll ks.flatten ++ w)) := by
    rw [hw]; simp only [List.append_assoc]
  refine ⟨?_, ?_⟩
  · have ht := congrArg (List.take (line x ++ crlf).length) hw'
    rw [List.take_append_of_le_length (by omega), List.take_left' rfl, hlen] at ht
    conv => lhs; rw [← List.take_append_drop ((line x).length + 2) r.rest, ht]
    simp [crlf, cr, lf]
  · have := drop_of_append hw' (by omega)
    rwa [hlen] at this

omit hw hr hp hl hs in
theorem pos_le {n : Nat} (h : n ≤ r.rest.length) : r.pos + n ≤ r.buf.length := by
  rw [Reader.rest, List.length_drop] at h
  omega

theorem line_item {type : Kind} (hb : behind x = []) (hk : ∀ more : List UInt8, type = .integer →
    ∃ n, readLongLong (line x ++ 13 :: more) = .ok n ∧ obj x = .integer n)
    (ho : type ≠ .integer → obj x = .string type (line x)) : Typed r f w top (r.processLineItem type) := by
  have hseek := seek_item hl hw hs
  by_cases hle : (line x).length + 2 ≤ r.rest.length
  · rw [if_pos hle] at hseek
    obtain ⟨hrest, hw'⟩ := rest_line hw hle
    rw [hb, List.nil_append] at hw'
    obtain ⟨r', hc, h1, h2, h3, h4⟩ := complete_spec hr hp hw'
    refine .inr ⟨r', ?_, h1, by rw [h2]; exact pos_le hpos hle, h3, h4⟩
    have hread : r.readLine = some (r.rest, (line x).length, { r with pos := r.pos + ((line x).length + 2) }) := by
      rw [Reader.readLine, hseek]
      rfl
    have hproc : r.processLineItem type =
        if type = .integer then do
          let v ← readLongLong r.rest
          ({ r with pos := r.pos + ((line x).length + 2) } : Reader).complete (.integer v)
        else ({ r with pos := r.pos + ((line x).length + 2) } : Reader).complete
          (.string type (r.rest.take (line x).length)) := by
      rw [Reader.processLineItem, hread]
    rw [hproc]
    split
    · rename_i ht
      obtain ⟨n, hn, ho⟩ := hk (10 :: r.rest.drop ((line x).length + 2)) ht
      rw [← hrest] at hn
      simp only [hn, Except.ok_bind, ← ho]
      exact hc
    · rename_i ht
      have hline : r.rest.take (line x).length = line x := by
        rw [hrest, List.take_left' rfl]
      rw [hline, ← ho ht]
      exact hc
  · rw [if_neg hle] at hseek
    refine .inl ⟨lacks_of_lt hw (by rw [hb, List.length_nil]; omega), ?_⟩
    rw [Reader.processLineItem, Reader.readLine, hseek]
    rfl

theorem bulk_item {s : List UInt8} (hx : x = .nullBulk ∨ x = .bulk s) (hlen : s.length < 2 ^ 63) :
    Typed r f w top r.processBulkItem := by
  have hseek := seek_item hl hw hs
  by_cases hle : (line x).length + 2 ≤ r.rest.length
  · rw [if_pos hle] at hseek
    obtain ⟨hrest, hw'⟩ := rest_line hw hle
    rcases hx with rfl | rfl
    · rw [show behind _ = [] from rfl, List.nil_append] at hw'
      obtain ⟨r', hc, h1, h2, h3, h4⟩ := complete_spec hr hp hw'
      refine .inr ⟨r', ?_, h1, by rw [h2]; exact pos_le hpos hle, h3, h4⟩
      have hn : readLongLong r.rest = .ok (-1) := by
        rw [hrest]
        exact readLongLong_ofInt (by decide) (by decide) _
      rw [Reader.processBulkItem, hseek]
      simp only [hn, Except.ok_bind]
      exact hc
    · have hn : readLongLong r.rest = .ok (s.length : Int) := by
        rw [hrest]
        exact readLongLong_ofNat hlen _
      have hproc : r.processBulkItem =
          if r.pos + ((line (.bulk s)).length + 2 + (s.length + 2)) ≤ r.buf.length then
            ({ r with pos := r.pos + ((line (.bulk s)).length + 2 + (s.length + 2)) } : Reader).complete
              (.string .string ((r.rest.drop ((line (.bulk s)).length + 2)).take s.length))
          else .ok (r, false) := by
        rw [Reader.processBulkItem, hseek]
        simp only [hn, Except.ok_bind, Int.toNat_natCast]
        rw [if_neg (by omega)]
      have hlen := congrArg List.length hw'
      rw [hproc]
      split
      · rename_i hfit
        have hb : (behind (.bulk s)).length ≤ (r.rest.drop ((line (.bulk s)).length + 2)).length := by
          rw [List.length_drop, Reader.rest, List.length_drop, behind, List.length_append]
          simp only [crlf, List.length_cons, List.length_nil]
          omega
        have hw'' := drop_of_append hw' hb
        rw [List.drop_drop, show (behind (.bulk s)).length = s.length + 2 by simp [behind, crlf]] at hw''
        have hstr : (r.rest.drop ((line (.bulk s)).length + 2)).take s.length = s := by
          have ht := congrArg (List.take s.length) hw'
          rw [List.take_append_of_le_length (by rw [behind, List.length_append] at hb; omega), behind,
            List.append_assoc, List.take_left' rfl] at ht
          exact ht
        obtain ⟨r', hc, h1, h2, h3, h4⟩ := complete_spec hr hp hw''
        rw [hstr]
        exact .inr ⟨r', hc, h1, by rw [h2]; exact hfit, h3, h4⟩
      · rename_i hfit
        refine .inl ⟨lacks_of_lt hw ?_, rfl⟩
        rw [Reader.rest, List.length_drop, behind, List.length_append]
        simp only [crlf, List.length_cons, List.length_nil]
        omega
  · rw [if_neg hle] at hseek
    refine .inl ⟨lacks_of_lt hw (by omega), ?_⟩
    rw [Reader.processBulkItem, hseek]

/-- An array, or nil in place of one: the reader is at its first element then, unless there is none. -/
theorem array_item {l : List Value} (hx : x = .nullArray ∨ x = .array l) (hlen : l.length < 2 ^ 31)
    (hd : r.rstack.length < 9) : Typed r f w top r.processMultiBulkItem := by
  have hseek := seek_item hl hw hs
  rw [Reader.processMultiBulkItem, if_neg (by omega)]
  by_cases hle : (line x).length + 2 ≤ r.rest.length
  · rw [if_pos hle] at hseek
    obtain ⟨hrest, hw'⟩ := rest_line hw hle
    have hread : r.readLine = some (r.rest, (line x).length, { r with pos := r.pos + ((line x).length + 2) }) := by
      rw [Reader.readLine, hseek]
      rfl
    rw [hread]
    rcases hx with rfl | rfl
    · rw [show behind _ = [] from rfl, List.nil_append] at hw'
      obtain ⟨r', hc, h1, h2, h3, h4⟩ := complete_spec hr hp hw'
      refine .inr ⟨r', ?_, h1, by rw [h2]; exact pos_le hpos hle, h3, h4⟩
      have hn : readLongLong r.rest = .ok (-1) := by
        rw [hrest]
        exact readLongLong_ofInt (by decide) (by decide) _
      simp only [hn, Except.ok_bind, if_true]
      exact hc
    · have hn : readLongLong r.rest = .ok (l.length : Int) := by
        rw [hrest]
        exact readLongLong_ofNat (Nat.lt_trans hlen (by decide)) _
      simp only [hn, Except.ok_bind]
      rw [if_neg (by omega)]
      cases l with
      | nil =>
        rw [behind, encodeAll_nil, List.nil_append] at hw'
        obtain ⟨r', hc, h1, h2, h3, h4⟩ := complete_spec hr hp hw'
        refine .inr ⟨r', ?_, h1, by rw [h2]; exact pos_le hpos hle, h3, h4⟩
        rw [if_neg (by simp)]
        rw [obj_array] at hc
        exact hc
      | cons y l =>
        have hst := hp.storable
        cases hrs : r.rstack with
        | nil => rw [hrs] at hp; cases hp
        | cons cur rstack =>
          rw [hrs] at hp hst
          rw [if_pos (by simp)]
          simp only [hst, if_true]
          have hi : i32 ((y :: l).length : Int) = (y :: l).length := i32_of_range (by omega) (by omega)
          have hp' : Path ({ cur with elements := i32 ((y :: l).length : Int), done := [] } :: rstack)
              (.array ([] ++ y :: l)) ks top := hp.head rfl
          refine .inr ⟨_, rfl, rfl, pos_le hpos hle, rfl, .more rfl (.child rfl ?_ rfl hp') ?_ hr⟩
          · show i32 ((y :: l).length : Int) = _
            rw [hi, List.length_cons, List.length_nil]
            omega
          · rw [behind, encodeAll_cons] at hw'
            rw [List.flatten_cons, encodeAll_append, Reader.rest, ← List.drop_drop]
            simpa only [List.append_assoc, Reader.rest] using hw'
  · rw [if_neg hle] at hseek
    refine .inl ⟨lacks_of_lt hw (by omega), ?_⟩
    rw [Reader.readLine, hseek]
    rfl

theorem typed_item (ht : Within 8 top) : Typed r f w top (r.processTyped (kind x)) := by
  obtain ⟨hlen, hf, -⟩ := hp.fits ht
  cases x with
  | status l => exact line_item hr hpos hp hl hw hs rfl (fun _ h => by cases h) fun _ => rfl
  | error l => exact line_item hr hpos hp hl hw hs rfl (fun _ h => by cases h) fun _ => rfl
  | integer n =>
    obtain ⟨h1, h2⟩ := within_integer.mp hf
    exact line_item hr hpos hp hl hw hs rfl (fun more _ => ⟨n, readLongLong_ofInt h1 h2 more, rfl⟩) fun h => absurd rfl h
  | bulk s => exact bulk_item hr hpos hp hl hw hs (.inr rfl) (within_bulk.mp hf)
  | nullBulk => exact bulk_item (s := []) hr hpos hp hl hw hs (.inl rfl) (by decide)
  | array l =>
    obtain ⟨d, hd⟩ : ∃ d, 9 - r.rstack.length = d + 1 := by
      cases hc : 9 - r.rstack.length with
      | zero => rw [hc] at hf; simp [Within] at hf
      | succ d => exact ⟨d, rfl⟩
    rw [hd, within_array] at hf
    exact array_item hr hpos hp hl hw hs (.inr rfl) hf.1 (by omega)
  | nullArray =>
    have hd : r.rstack.length < 9 := by
      rcases Nat.lt_or_ge r.rstack.length 9 with h | h
      · exact h
      · rw [show 9 - r.rstack.length = 0 by omega] at hf
        simp [Within] at hf
    exact array_item (l := []) hr hpos hp hl hw hs (.inl rfl) (by decide) hd

end

end

/-- The reader is in the midst of `top`; `w` is what follows it. -/
inductive At (f w : List UInt8) (top : Value) (r : Reader) : Prop
  | item {cur : Task} {rstack : List Task} {x : Value} {ks : List (List Value)} :
      r.rstack = cur :: rstack → cur.type = none → Path (cur :: rstack) x ks top →
      r.rest ++ f = encode x ++ (encodeAll ks.flatten ++ w) → At f w top r
  | typed {cur : Task} {rstack : List Task} {x : Value} {ks : List (List Value)} :
      r.rstack = cur :: rstack → cur.type = some (kind x) → Path (cur :: rstack) x ks top →
      r.rest ++ f = line x ++ crlf ++ behind x ++ (encodeAll ks.flatten ++ w) → At f w top r

/-- The reader once it has the byte that says what comes. -/
def begun (r : Reader) (type : Kind) (cur : Task) (rstack : List Task) : Reader :=
  { r with pos := r.pos + 1, rstack := { cur with type := some type } :: rstack }

/-- What the reader is in every state in which it has had no error. -/
structure Sound (r : Reader) : Prop where
  err : r.err = none
  pos : r.pos ≤ r.buf.length
  short : r.buf.length < 2 ^ 31

section
variable {r : Reader} {f w : List UInt8} {top : Value}

theorem At.processItem (h : At f w top r) (hs : Sound r) (hr : r.reply = none) (ht : Within 8 top) :
    (f ≠ [] ∧ ∃ r', r.processItem = .ok (r', false) ∧ Sound r' ∧ r'.reply = none ∧ At f w top r') ∨
      ∃ r', r.processItem = .ok (r', true) ∧ Sound r' ∧ After f w top r' := by
  cases h with
  | @typed cur rstack x ks hrs htype hp hw =>
    obtain ⟨-, hf, -⟩ := hp.fits ht
    have hproc : r.processItem = r.processTyped (kind x) := by
      unfold Reader.processItem
      rw [hrs]
      simp only [htype]
    rw [hproc]
    rcases typed_item hr hs.pos (hrs ▸ hp) (lf_notMem_line hf) hw hs.short ht with ⟨hne, hres⟩ |
      ⟨r', hres, hb, hpos, he, ha⟩
    · exact .inl ⟨hne, r, hres, hs, hr, .typed hrs htype hp hw⟩
    · exact .inr ⟨r', hres, ⟨by rw [he, hs.err], by rw [hb]; exact hpos, by rw [hb]; exact hs.short⟩, ha⟩
  | @item cur rstack x ks hrs htype hp hw =>
    obtain ⟨-, hf, -⟩ := hp.fits ht
    rw [encode_eq, List.cons_append] at hw
    cases hrest : r.rest with
    | nil =>
      have hproc : r.processItem = .ok (r, false) := by
        unfold Reader.processItem
        rw [hrs]
        simp only [htype, hrest]
      refine .inl ⟨?_, r, hproc, hs, hr, .item hrs htype hp ?_⟩
      · rintro rfl
        rw [hrest] at hw
        cases hw
      · rw [encode_eq, List.cons_append, hw]
    | cons b u =>
      rw [hrest, List.cons_append, List.cons.injEq] at hw
      obtain ⟨rfl, hw⟩ := hw
      have hlen := congrArg List.length hrest
      rw [Reader.rest, List.length_drop, List.length_cons] at hlen
      have hu : r.buf.drop (r.pos + 1) = u := by
        rw [← List.drop_drop, ← Reader.rest, hrest]
        rfl
      have hproc : r.processItem = (begun r (kind x) cur rstack).processTyped (kind x) := by
        unfold Reader.processItem
        rw [hrs]
        simp only [htype, hrest, kindOf_byte]
        rfl
      have hp' : Path ({ cur with type := some (kind x) } :: rstack) x ks top := hp.head rfl
      have hw' : (begun r (kind x) cur rstack).rest ++ f =
          line x ++ crlf ++ behind x ++ (encodeAll ks.flatten ++ w) := by
        rw [← hw, ← hu]
        rfl
      rw [hproc]
      have hr' : (begun r (kind x) cur rstack).reply = none := hr
      have hpos : (begun r (kind x) cur rstack).pos ≤ (begun r (kind x) cur rstack).buf.length := by
        show r.pos + 1 ≤ r.buf.length
        omega
      rcases typed_item hr' hpos hp' (lf_notMem_line hf) hw' hs.short ht with ⟨hne, hres⟩ |
        ⟨r', hres, hb, hpos, he, ha⟩
      · exact .inl ⟨hne, _, hres, ⟨hs.err, ‹_›, hs.short⟩, hr, .typed rfl rfl hp' hw'⟩
      · exact .inr ⟨r', hres, ⟨by rw [he]; exact hs.err, by rw [hb]; exact hpos, by rw [hb]; exact hs.short⟩, ha⟩

/-- The loop goes on to the end of `top`, or as far as the bytes reach. -/
theorem At.processItems (h : At f w top r) (hs : Sound r) (hr : r.reply = none) (ht : Within 8 top) :
    ∃ r', r.processItems = .ok r' ∧ Sound r' ∧
      ((f ≠ [] ∧ r'.reply = none ∧ At f w top r') ∨
        r'.rstack = [] ∧ r'.reply = some (obj top) ∧ r'.rest ++ f = w) := by
  induction hn : r.unread using Nat.strong_induction_on generalizing r with
  | _ n ih =>
    subst hn
    have hne : r.rstack.isEmpty = false := by
      cases h with
      | item hrs => rw [hrs]; rfl
      | typed hrs => rw [hrs]; rfl
    rw [Reader.processItems, if_neg (by rw [hne]; decide)]
    rcases h.processItem hs hr ht with ⟨hf, r', hres, hs', hr', h'⟩ | ⟨r', hres, hs', ha⟩
    · refine ⟨r', ?_, hs', .inl ⟨hf, hr', h'⟩⟩
      split
      · rename_i he; rw [hres] at he; cases he
      · rename_i he; rw [hres] at he; cases he
      · rename_i he; rw [hres] at he; cases he; rfl
    · have hlt := Reader.processItem_lt hres
      have hstep : ∃ r'', r'.processItems = .ok r'' ∧ Sound r'' ∧
          ((f ≠ [] ∧ r''.reply = none ∧ At f w top r'') ∨
            r''.rstack = [] ∧ r''.reply = some (obj top) ∧ r''.rest ++ f = w) := by
        cases ha with
        | more hrs hp hw hr' => exact ih _ hlt (.item hrs rfl hp hw) hs' hr' rfl
        | done hrs hrep hw =>
          refine ⟨r', ?_, hs', .inr ⟨hrs, hrep, hw⟩⟩
          rw [Reader.processItems, if_pos (by rw [hrs]; rfl)]
      obtain ⟨r'', h1, h2, h3⟩ := hstep
      refine ⟨r'', ?_, h2, h3⟩
      split
      · rename_i he; rw [hres] at he; cases he
      · rename_i he; rw [hres] at he; cases he; exact h1
      · rename_i he; rw [hres] at he; cases he

end

/-! ## Whole runs -/

/-- The reader between two calls: these replies are to come, and of their bytes `f` is not fed yet. -/
inductive Between (rs : List Value) (f : List UInt8) (r : Reader) : Prop
  | idle : r.rstack = [] → r.rest ++ f = encodeAll rs → Between rs f r
  | started : rs = [] → r.rstack = [Task.fresh (-1)] → r.rest ++ f = [] → Between rs f r
  | midst {top : Value} {rs' : List Value} : rs = top :: rs' → At f (encodeAll rs') top r → Between rs f r

structure Good (rs : List Value) (f : List UInt8) (r : Reader) : Prop where
  sound : Sound r
  reply : r.reply = none
  fits : ∀ v ∈ rs, Within 8 v
  between : Between rs f r

section
variable {r : Reader} {f w : List UInt8} {rs : List Value}

theorem Good.create (hf : ∀ v ∈ rs, Within 8 v) : Good rs (encodeAll rs) Reader.create :=
  ⟨⟨rfl, Nat.le_refl 0, by decide⟩, rfl, hf, .idle rfl rfl⟩

theorem rest_feed (hs : Sound r) (bytes : List UInt8) : (r.feed bytes).1 = { r with buf := r.buf ++ bytes } ∧
    (r.feed bytes).1.rest = r.rest ++ bytes := by
  have he : (r.feed bytes).1 = { r with buf := r.buf ++ bytes } := by
    unfold Reader.feed
    rw [hs.err]
    rfl
  refine ⟨he, ?_⟩
  rw [he, Reader.rest, Reader.rest, List.drop_append_of_le_length hs.pos]

theorem Good.feed {bytes : List UInt8} (h : Good rs (bytes ++ f) r) (hs : (r.feed bytes).1.buf.length < 2 ^ 31) :
    Good rs f (r.feed bytes).1 := by
  obtain ⟨he, hrest⟩ := rest_feed h.sound bytes
  have hrs : (r.feed bytes).1.rstack = r.rstack := by rw [he]
  have hw : ∀ w, r.rest ++ (bytes ++ f) = w → (r.feed bytes).1.rest ++ f = w := by
    intro w hw
    rw [hrest, List.append_assoc, hw]
  refine ⟨⟨by rw [he]; exact h.sound.err, ?_, hs⟩, by rw [he]; exact h.reply, h.fits, ?_⟩
  · rw [he]
    show r.pos ≤ (r.buf ++ bytes).length
    have := h.sound.pos
    rw [List.length_append]
    omega
  · cases h.between with
    | idle h1 h2 => exact .idle (hrs.trans h1) (hw _ h2)
    | started h0 h1 h2 => exact .started h0 (hrs.trans h1) (hw _ h2)
    | midst h0 h1 =>
      refine .midst h0 ?_
      cases h1 with
      | item h1 h2 h3 h4 => exact .item (hrs.trans h1) h2 h3 (hw _ h4)
      | typed h1 h2 h3 h4 => exact .typed (hrs.trans h1) h2 h3 (hw _ h4)

/-- The bytes that have been read are given up at times, which changes nothing for what follows. -/
theorem emit_eq (hs : Sound r) : ∃ r', Sound r' ∧ r'.rest = r.rest ∧ r'.rstack = r.rstack ∧ r'.reply = r.reply ∧
    r.emit = if r.rstack = [] then ({ r' with reply := none }, r.reply, true) else (r', none, true) := by
  have herr : r.err.isSome = false := by rw [hs.err]; rfl
  unfold Reader.emit
  simp only [herr, Bool.false_eq_true, if_false, List.isEmpty_iff]
  split
  · refine ⟨{ r with buf := r.rest, pos := 0 }, ⟨hs.err, Nat.zero_le _, ?_⟩, rfl, rfl, rfl, rfl⟩
    exact Nat.lt_of_le_of_lt (by rw [Reader.rest, List.length_drop]; exact Nat.sub_le _ _) hs.short
  · exact ⟨r, hs, rfl, rfl, rfl, rfl⟩

theorem At.rstack_ne_nil {top : Value} (h : At f w top r) : r.rstack ≠ [] := by
  cases h with
  | item h => rw [h]; simp
  | typed h => rw [h]; simp

theorem At.congr {top : Value} {r' : Reader} (h : At f w top r) (hst : r'.rstack = r.rstack) (hrest : r'.rest = r.rest) :
    At f w top r' := by
  cases h with
  | item h1 h2 h3 h4 => exact .item (hst.trans h1) h2 h3 (hrest ▸ h4)
  | typed h1 h2 h3 h4 => exact .typed (hst.trans h1) h2 h3 (hrest ▸ h4)

/-- While something is to come, some of its bytes are still to be read or fed. -/
theorem Between.ne_nil (h : Between rs f r) (hrs : rs ≠ []) : r.rest ++ f ≠ [] := by
  intro hnil
  cases h with
  | idle _ hw =>
    cases rs with
    | nil => exact hrs rfl
    | cons v rs =>
      rw [hnil, encodeAll_cons, encode_eq] at hw
      cases hw
  | started h0 => exact hrs h0
  | midst _ h1 =>
    cases h1 with
    | item _ _ _ hw =>
      rw [hnil, encode_eq] at hw
      cases hw
    | typed _ _ _ hw =>
      rw [hnil] at hw
      simpa [crlf] using congrArg List.length hw

/-- The next reply, if it has all come; if not, some of it is still to be fed. -/
theorem Good.getReply (h : Good rs f r) : ∃ r' reply, r.getReply = .ok (r', reply, true) ∧
    ((reply = none ∧ Good rs f r' ∧ (rs ≠ [] → f ≠ [])) ∨
      ∃ v rs', rs = v :: rs' ∧ reply = some (obj v) ∧ Good rs' f r') := by
  have herr := h.sound.err
  by_cases hb : r.buf = []
  · have hres : r.getReply = .ok (r, none, true) := by
      unfold Reader.getReply
      rw [herr, hb]
      rfl
    refine ⟨r, none, hres, .inl ⟨rfl, h, fun hne hf => h.between.ne_nil hne ?_⟩⟩
    rw [Reader.rest, hb, hf, List.drop_nil]
    rfl
  · have hres : r.getReply = (Reader.processItems
        (if r.rstack.isEmpty then { r with rstack := [Task.fresh (-1)] } else r)).map Reader.emit := by
      unfold Reader.getReply
      rw [herr]
      simp [hb]
    -- from the midst of a reply on
    have midst : ∀ {top : Value} {rs' : List Value} {r₁ : Reader}, rs = top :: rs' → Sound r₁ → r₁.reply = none →
        At f (encodeAll rs') top r₁ → ∃ r' reply, r₁.processItems.map Reader.emit = .ok (r', reply, true) ∧
          ((reply = none ∧ Good rs f r' ∧ (rs ≠ [] → f ≠ [])) ∨
            ∃ v rs', rs = v :: rs' ∧ reply = some (obj v) ∧ Good rs' f r') := by
      intro top rs' r₁ hrs hs₁ hr₁ hat
      obtain ⟨r₂, hp, hs₂, hcase⟩ := hat.processItems hs₁ hr₁ (h.fits top (by rw [hrs]; simp))
      obtain ⟨r₃, hs₃, hrest, hst, hr₃, hemit⟩ := emit_eq hs₂
      rcases hcase with ⟨hf, hr₂, hat₂⟩ | ⟨hst₂, hr₂, hw⟩
      · rw [if_neg hat₂.rstack_ne_nil] at hemit
        refine ⟨r₃, none, ?_, .inl ⟨rfl, ⟨hs₃, hr₃.trans hr₂, h.fits, .midst hrs (hat₂.congr hst hrest)⟩, fun _ => hf⟩⟩
        rw [hp]
        exact congrArg Except.ok hemit
      · rw [if_pos hst₂, hr₂] at hemit
        refine ⟨{ r₃ with reply := none }, _, ?_,
          .inr ⟨top, rs', hrs, rfl, ⟨hs₃.err, hs₃.pos, hs₃.short⟩, rfl, ?_, .idle (hst.trans hst₂) ?_⟩⟩
        · rw [hp]
          exact congrArg Except.ok hemit
        · exact fun v hv => h.fits v (by rw [hrs]; exact List.mem_cons_of_mem top hv)
        · rw [← hw, ← hrest]
          rfl
    -- with a task for a reply of which nothing has come
    have started : ∀ {r₁ : Reader}, rs = [] → Sound r₁ → r₁.reply = none → r₁.rstack = [Task.fresh (-1)] →
        r₁.rest ++ f = [] → ∃ r' reply, r₁.processItems.map Reader.emit = .ok (r', reply, true) ∧
          ((reply = none ∧ Good rs f r' ∧ (rs ≠ [] → f ≠ [])) ∨
            ∃ v rs', rs = v :: rs' ∧ reply = some (obj v) ∧ Good rs' f r') := by
      intro r₁ hrs hs₁ hr₁ hst₁ hw
      have hproc : r₁.processItem = .ok (r₁, false) := by
        unfold Reader.processItem
        rw [hst₁, (List.append_eq_nil_iff.mp hw).1]
        rfl
      have hp : r₁.processItems = .ok r₁ := by
        rw [Reader.processItems, if_neg (by rw [hst₁]; decide)]
        split
        · rename_i he; rw [hproc] at he; cases he
        · rename_i he; rw [hproc] at he; cases he
        · rename_i he; rw [hproc] at he; cases he; rfl
      obtain ⟨r₃, hs₃, hrest, hst, hr₃, hemit⟩ := emit_eq hs₁
      rw [if_neg (by rw [hst₁]; simp)] at hemit
      refine ⟨r₃, none, ?_, .inl ⟨rfl, ⟨hs₃, hr₃.trans hr₁, h.fits, .started hrs (hst.trans hst₁) (hrest ▸ hw)⟩,
        fun hne => absurd hrs hne⟩⟩
      rw [hp]
      exact congrArg Except.ok hemit
    rw [hres]
    cases h.between with
    | idle hst hw =>
      rw [hst]
      cases hrs : rs with
      | nil =>
        rw [hrs, encodeAll_nil] at hw
        subst hrs
        exact started rfl ⟨herr, h.sound.pos, h.sound.short⟩ h.reply rfl hw
      | cons top rs' =>
        rw [hrs, encodeAll_cons] at hw
        subst hrs
        have hw' : r.rest ++ f = encode top ++ (encodeAll (List.flatten []) ++ encodeAll rs') := by simpa using hw
        exact midst rfl ⟨herr, h.sound.pos, h.sound.short⟩ h.reply (.item rfl rfl .root hw')
    | started hrs hst hw =>
      rw [hst]
      exact started hrs h.sound h.reply hst hw
    | midst hrs hat =>
      rw [if_neg (by simpa using hat.rstack_ne_nil)]
      exact midst hrs h.sound h.reply hat

end

/-! ## The length of the buffer -/

theorem processItems_buf {r r' : Reader} (h : r.processItems = .ok r') : r'.buf = r.buf ∨ r'.buf = [] := by
  induction hn : r.unread using Nat.strong_induction_on generalizing r with
  | _ n ih =>
    subst hn
    rw [Reader.processItems] at h
    split at h
    · cases h
      exact .inl rfl
    · split at h
      · cases h
      · rename_i r₁ hres
        cases Reader.processItem_moved hres with
        | read hb h1 h2 =>
          rw [← hb]
          exact ih _ (Reader.processItem_lt hres) h rfl
      · rename_i r₁ hres
        cases h
        cases Reader.processItem_moved hres with
        | left hb => exact hb

theorem emit_buf (r : Reader) : r.emit.1.buf.length ≤ r.buf.length := by
  have hrest : r.rest.length ≤ r.buf.length := by
    rw [Reader.rest, List.length_drop]
    exact Nat.sub_le _ _
  unfold Reader.emit
  split
  · exact Nat.le_refl _
  · dsimp only
    split <;> split
    · exact hrest
    · exact hrest
    · exact Nat.le_refl _
    · exact Nat.le_refl _

theorem getReply_buf {r r' : Reader} {reply : Option Obj} {ok : Bool} (h : r.getReply = .ok (r', reply, ok)) :
    r'.buf.length ≤ r.buf.length := by
  unfold Reader.getReply at h
  split at h
  · cases h
    exact Nat.le_refl _
  · split at h
    · cases h
      exact Nat.le_refl _
    · generalize hp : Reader.processItems _ = res at h
      rcases res with _ | r₁
      · cases h
      · have he : r₁.emit = (r', reply, ok) := Except.ok.inj h
        have hle : r₁.buf.length ≤ r.buf.length := by
          rcases processItems_buf hp with hb | hb
          · rw [hb]
            split <;> exact Nat.le_refl _
          · rw [hb]
            exact Nat.zero_le _
        have hemit := emit_buf r₁
        rw [he] at hemit
        exact Nat.le_trans hemit hle

theorem short_of_fed : ∀ {es : List Event} {r : Reader}, r.buf.length + (fed es).length < 2 ^ 31 → r.Short es
  | [], _, _ => trivial
  | .feed bytes :: es, r, h => by
    have hf : (fed (.feed bytes :: es)).length = bytes.length + (fed es).length := by
      rw [fed, List.flatMap_cons, List.length_append]
      rfl
    have hb : (r.feed bytes).1.buf.length ≤ r.buf.length + bytes.length := by
      unfold Reader.feed
      split
      · exact Nat.le_add_right _ _
      · exact Nat.le_of_eq List.length_append
    exact ⟨by omega, short_of_fed (by omega)⟩
  | .get :: es, r, h => by
    intro r' reply ok hget
    have hf : fed (.get :: es) = fed es := by
      rw [fed, List.flatMap_cons, List.nil_append]
      rfl
    have hb := getReply_buf hget
    rw [hf] at h
    exact short_of_fed (by omega)

/-- Whatever bytes are fed at a time, and whenever replies are asked for: what is given are the first of the replies, in
their order, and once the last byte is there the next one is given at once. -/
theorem replies_spec (rs : List Value) (hfits : ∀ v ∈ rs, Within 8 v) (es : List Event) (f : List UInt8)
    (hfed : fed es ++ f = encodeAll rs) (hshort : Reader.create.Short es) :
    ∃ r k, Reader.create.replies es = .ok (r, (rs.take k).map obj) ∧ r.err = none ∧
      (f = [] → ∃ r', r.getReply = .ok (r', (rs[k]?).map obj, true)) := by
  have run : ∀ (es : List Event) {rs : List Value} {r : Reader}, Good rs (fed es ++ f) r → r.Short es →
      ∃ r' k, r.replies es = .ok (r', (rs.take k).map obj) ∧ Good (rs.drop k) f r' := by
    intro es
    induction es with
    | nil =>
      intro rs r h _
      exact ⟨r, 0, by simp [Reader.replies], by simpa [fed] using h⟩
    | cons e es ih =>
      intro rs r h hs
      cases e with
      | feed bytes =>
        have hf : fed (.feed bytes :: es) ++ f = bytes ++ (fed es ++ f) := by
          rw [fed, List.flatMap_cons, List.append_assoc]
          rfl
        rw [hf] at h
        exact ih (h.feed hs.1) hs.2
      | get =>
        have hf : fed (.get :: es) = fed es := by
          rw [fed, List.flatMap_cons, List.nil_append]
          rfl
        rw [hf] at h
        obtain ⟨r₁, reply, hget, hcase⟩ := h.getReply
        have hs₁ := hs r₁ reply true hget
        rw [Reader.replies, hget]
        simp only [Except.ok_bind]
        rcases hcase with ⟨rfl, h₁, -⟩ | ⟨v, rs', rfl, rfl, h₁⟩
        · obtain ⟨r', k, hr, h'⟩ := ih h₁ hs₁
          exact ⟨r', k, by rw [hr]; rfl, h'⟩
        · obtain ⟨r', k, hr, h'⟩ := ih h₁ hs₁
          exact ⟨r', k + 1, by rw [hr]; rfl, h'⟩
  have h0 : Good rs (fed es ++ f) Reader.create := by
    rw [hfed]
    exact .create hfits
  obtain ⟨r, k, hr, hg⟩ := run es h0 hshort
  refine ⟨r, k, hr, hg.sound.err, ?_⟩
  rintro rfl
  obtain ⟨r', reply, hget, hcase⟩ := hg.getReply
  refine ⟨r', ?_⟩
  rw [hget]
  rcases hcase with ⟨rfl, -, hne⟩ | ⟨v, rs', hv, rfl, -⟩
  · have hnil : rs.drop k = [] := by
      by_contra hn
      exact hne hn rfl
    rw [List.getElem?_eq_none (List.drop_eq_nil_iff.mp hnil)]
    rfl
  · have hk : rs[k]? = some v := by
      rw [← Nat.add_zero k, ← List.getElem?_drop, hv]
      rfl
    rw [hk]
    rfl

/-- A status, and an array of a number and a string. -/
def twoReplies : List Value := [.status [79, 75], .array [.integer (-7), .bulk [10]]]

/-- The array comes in three parts, the first of them with the status. -/
def threeParts : List Event :=
  [.feed [43, 79, 75, 13, 10, 42], .get, .get, .feed [50, 13, 10, 58, 45, 55, 13], .get,
    .feed [10, 36, 49, 13, 10, 10, 13, 10]]

theorem replies_spec_parts : ∃ r k, Reader.create.replies threeParts = .ok (r, (twoReplies.take k).map obj) ∧
    r.err = none ∧ (([] : List UInt8) = [] → ∃ r', r.getReply = .ok (r', (twoReplies[k]?).map obj, true)) := by
  apply replies_spec twoReplies
  · simp [twoReplies, within_array, lf]
  · have h1 : Decimal.ofNat 1 = [49] := by decide
    have h2 : Decimal.ofNat 2 = [50] := by decide
    have h7 : Decimal.ofNat 7 = [55] := by decide
    simp [twoReplies, threeParts, fed, encode, crlf, cr, lf, ofInt, minus, h1, h2, h7]
  · exact short_of_fed (by decide)

end GlobalServer.RedisReader

import GlobalServer.Netio.HttpMsg

/-!
# HTTP parsing byte by byte

Up to the end of the head a message is what its bytes make of it one after the
other, wherever the chunks end: `_assistflag` stands for the CR that a LF may
follow. The body is copied by lengths and begins with the reading of
Content-Length, which is where chunks, and messages, can go wrong.
-/

namespace GlobalServer.Http

open Bytes (Fault i32)
open HttpBaseMsg

/-! ## One byte of the head -/

@[simp] theorem HttpBaseMsg.write_write (s : HttpBaseMsg) (l l' : List UInt8) :
    (s.write l).write l' = s.write (l ++ l') := by
  simp [HttpBaseMsg.write]

@[simp] theorem HttpBaseMsg.write_nil (s : HttpBaseMsg) : s.write [] = s := by simp [HttpBaseMsg.write]

@[simp] theorem Parsed.after_zero (p : Parsed) : p.after 0 = p := by
  cases p with
  | error e => rfl
  | ok r => simp [Parsed.after, Except.map]

theorem Parsed.after_after (m n : Nat) (p : Parsed) : (p.after n).after m = p.after (m + n) := by
  cases p with
  | error e => rfl
  | ok r => simp [Parsed.after, Except.map, Nat.add_assoc]

@[simp] theorem Parsed.after_ok (n m : Nat) (s : HttpBaseMsg) : Parsed.after n (.ok (s, m)) = .ok (s, n + m) := rfl

@[simp] theorem Parsed.after_error (n : Nat) (e : Fault) : Parsed.after n (.error e) = .error e := rfl

theorem parseSecond_nil (line : StartLine) (s : HttpBaseMsg) : s.parseSecond line [] = .ok (s, 0) := if_pos rfl

theorem parseThird_nil (s : HttpBaseMsg) : s.parseThird [] = .ok (s, 0) := if_pos rfl

theorem parseFirst_nil (line : StartLine) (s : HttpBaseMsg) : s.parseFirst line [] = .ok (s, 0) := by
  simp [parseFirst, parse1]

theorem parseFirst_cons (line : StartLine) (s : HttpBaseMsg) (b : UInt8) (bs : List UInt8) :
    s.parseFirst line (b :: bs) = Parsed.after 1 (if b = SP then parseSecond line (endFirst line (s.write [b])) bs
      else parseFirst line (s.write [b]) bs) := by
  unfold parseFirst
  by_cases hb : b = SP
  · simp [parse1, hb]
  · rw [if_neg hb]
    simp only [parse1, if_neg hb, List.take_succ_cons, List.drop_succ_cons, write_write, List.singleton_append]
    split
    · rw [Parsed.after_after, Nat.add_comm]
    · rw [Parsed.after_ok, Nat.add_comm]

theorem parseSecond_cons (line : StartLine) (s : HttpBaseMsg) (b : UInt8) (bs : List UInt8) :
    s.parseSecond line (b :: bs) = Parsed.after 1 (if b = SP then parseThird (endSecond line (s.write [b])) bs
      else parseSecond line (s.write [b]) bs) := by
  by_cases hb : b = SP
  · simp [parseSecond, parse1, hb]
  · rw [if_neg hb]
    by_cases hbs : bs = []
    · simp [parseSecond, parse1, hb, hbs]
    · unfold parseSecond
      rw [if_neg (List.cons_ne_nil _ _), if_neg hbs]
      simp only [parse1, if_neg hb, List.take_succ_cons, List.drop_succ_cons, write_write, List.singleton_append]
      split
      · rw [Parsed.after_after, Nat.add_comm]
      · rw [Parsed.after_ok, Nat.add_comm]

/-- A byte that does not end the line. -/
def HttpBaseMsg.inLine (s : HttpBaseMsg) (b : UInt8) : HttpBaseMsg := { s.write [b] with assistflag := b = CR }

def HttpBaseMsg.finishLine (s : HttpBaseMsg) (buffer : List UInt8) (r : Nat × Bool) : HttpBaseMsg × Nat × Bool :=
  let t := s.write (buffer.take r.1)
  if r.2 then ({ t with assistflag := false }, r.1, true)
  else ({ t with assistflag := t.buffer.getLast? = some CR }, r.1, false)

theorem takeLine_end (s : HttpBaseMsg) (bs : List UInt8) (h : s.assistflag) :
    s.takeLine (LF :: bs) = ({ s.write [LF] with assistflag := false }, 1, true) := by
  simp [takeLine, h, HttpBaseMsg.write]

theorem takeLine_scan (s : HttpBaseMsg) (buffer : List UInt8) (h : ¬ (s.assistflag ∧ buffer.head? = some LF)) :
    s.takeLine buffer = s.finishLine buffer (parse2 CR LF buffer) := by
  have hs : (if s.assistflag then
      if buffer.head? ≠ some LF then ({ s with assistflag := false }, parse2 CR LF buffer) else (s, 1, true)
      else (s, parse2 CR LF buffer)) = ({ s with assistflag := false }, parse2 CR LF buffer) := by
    cases ha : s.assistflag with
    | false => rw [if_neg (by simp), show { s with assistflag := false } = s by rw [← ha]]
    | true => rw [if_pos rfl, if_pos fun hb => h ⟨ha, hb⟩]
  unfold takeLine finishLine
  rw [hs]
  clear hs
  obtain ⟨n, hit⟩ := parse2 CR LF buffer
  cases hit with
  | true => rfl
  | false =>
    by_cases hl : (s.buffer ++ buffer.take n).getLast? = some CR <;>
      simp only [HttpBaseMsg.write, hl, decide_true, decide_false, Bool.not_false, Bool.true_and, Bool.false_eq_true,
        if_true, if_false]

theorem takeLine_cons (s : HttpBaseMsg) (b : UInt8) (bs : List UInt8) (h : ¬ (s.assistflag ∧ b = LF)) :
    s.takeLine (b :: bs) = if bs = [] then (s.inLine b, 1, false)
      else (((s.inLine b).takeLine bs).1, ((s.inLine b).takeLine bs).2.1 + 1, ((s.inLine b).takeLine bs).2.2) := by
  rw [takeLine_scan s (b :: bs) (by simpa using h)]
  cases bs with
  | nil => simp [finishLine, parse2, inLine, HttpBaseMsg.write]
  | cons b₂ l =>
    rw [if_neg (List.cons_ne_nil _ _)]
    by_cases hc : b = CR ∧ b₂ = LF
    · obtain ⟨rfl, rfl⟩ := hc
      rw [takeLine_end _ _ (by simp [inLine])]
      simp [finishLine, parse2, inLine, HttpBaseMsg.write]
    · rw [takeLine_scan _ (b₂ :: l) (by simpa [inLine] using hc), parse2, if_neg hc]
      generalize parse2 CR LF (b₂ :: l) = r
      obtain ⟨n, hit⟩ := r
      cases hit <;> simp [finishLine, inLine, HttpBaseMsg.write]

theorem takeLine_length (s : HttpBaseMsg) (buffer : List UInt8) (h : buffer ≠ []) :
    0 < (s.takeLine buffer).2.1 ∧ (s.takeLine buffer).2.1 ≤ buffer.length := by
  induction buffer generalizing s with
  | nil => exact absurd rfl h
  | cons b bs ih =>
    by_cases hb : s.assistflag ∧ b = LF
    · obtain ⟨ha, rfl⟩ := hb
      simp [takeLine_end s bs ha]
    · rw [takeLine_cons s b bs hb]
      split
      · simp
      · rename_i hbs
        have := ih (s.inLine b) hbs
        simp only [List.length_cons]
        omega

theorem parseThird_cons (s : HttpBaseMsg) (b : UInt8) (bs : List UInt8) :
    s.parseThird (b :: bs) = Parsed.after 1 (if s.assistflag ∧ b = LF
      then parseHead bs.length ({ s.write [b] with assistflag := false } : HttpBaseMsg).endThird bs
      else (s.inLine b).parseThird bs) := by
  rw [parseThird, if_neg (List.cons_ne_nil _ _)]
  by_cases hb : s.assistflag ∧ b = LF
  · obtain ⟨ha, rfl⟩ := hb
    rw [takeLine_end s bs ha, if_pos ⟨ha, rfl⟩]
    rfl
  · rw [takeLine_cons s b bs hb, if_neg hb]
    by_cases hbs : bs = []
    · rw [if_pos hbs, hbs, parseThird_nil]
      rfl
    · rw [if_neg hbs, parseThird, if_neg hbs]
      generalize (s.inLine b).takeLine bs = r
      obtain ⟨s', n, hit⟩ := r
      cases hit with
      | true =>
        simp only [List.drop_succ_cons]
        rw [Parsed.after_after, Nat.add_comm 1 n]
      | false => simp only [Parsed.after_ok, Nat.add_comm n 1]

theorem parseHead_nil (n : Nat) (s : HttpBaseMsg) : parseHead n s [] = .ok (s, 0) := by
  cases n with
  | zero => rfl
  | succ n => exact if_pos rfl

/-- As many rounds as bytes are enough. -/
theorem parseHead_congr {n m : Nat} (s : HttpBaseMsg) {bs : List UInt8} (hn : bs.length ≤ n) (hm : bs.length ≤ m) :
    parseHead n s bs = parseHead m s bs := by
  induction n generalizing s bs m with
  | zero => rw [List.length_eq_zero_iff.mp (Nat.le_zero.mp hn), parseHead_nil, parseHead_nil]
  | succ n ih =>
    by_cases hbs : bs = []
    · rw [hbs, parseHead_nil, parseHead_nil]
    · obtain ⟨m, rfl⟩ : ∃ k, m = k + 1 := by
        refine Nat.exists_eq_succ_of_ne_zero fun h0 => hbs ?_
        exact List.length_eq_zero_iff.mp (by omega)
      rw [parseHead, parseHead, if_neg hbs, if_neg hbs]
      have hlen := takeLine_length s bs hbs
      generalize s.takeLine bs = r at hlen
      obtain ⟨s', k, hit⟩ := r
      cases hit with
      | false => rfl
      | true =>
        have hdrop : (bs.drop k).length + 1 ≤ bs.length := by
          simp only [List.length_drop] at hlen ⊢
          omega
        simp only
        rw [ih s'.endLine (m := m) (by omega) (by omega)]

/-- The head goes on, unless the line that has ended was empty. -/
def HttpBaseMsg.afterLine (s : HttpBaseMsg) (bs : List UInt8) : Parsed :=
  if s.flag = .E_PARSE_BODY then s.parseBody bs else parseHead bs.length s bs

theorem parseHead_cons (s : HttpBaseMsg) (b : UInt8) (bs : List UInt8) :
    parseHead (b :: bs).length s (b :: bs) = Parsed.after 1 (if s.assistflag ∧ b = LF
      then ({ s.write [b] with assistflag := false } : HttpBaseMsg).endLine.afterLine bs
      else parseHead bs.length (s.inLine b) bs) := by
  rw [List.length_cons, parseHead, if_neg (List.cons_ne_nil _ _)]
  by_cases hb : s.assistflag ∧ b = LF
  · obtain ⟨ha, rfl⟩ := hb
    rw [takeLine_end s bs ha, if_pos ⟨ha, rfl⟩]
    simp only [List.drop_succ_cons, List.drop_zero, afterLine]
    split <;> rfl
  · rw [takeLine_cons s b bs hb, if_neg hb]
    by_cases hbs : bs = []
    · rw [if_pos hbs, hbs, parseHead_nil]
      rfl
    · rw [if_neg hbs]
      obtain ⟨m, hm⟩ := Nat.exists_eq_succ_of_ne_zero (mt List.length_eq_zero_iff.mp hbs)
      rw [hm, parseHead, if_neg hbs]
      have hlen := takeLine_length (s.inLine b) bs hbs
      generalize (s.inLine b).takeLine bs = r at hlen
      obtain ⟨s', n, hit⟩ := r
      cases hit with
      | false => simp only [Parsed.after_ok, Nat.add_comm n 1]
      | true =>
        have hdrop : (bs.drop n).length ≤ m := by
          simp only [List.length_drop] at hlen ⊢
          omega
        simp only [List.drop_succ_cons]
        split
        · rw [Parsed.after_after, Nat.add_comm]
        · rw [Parsed.after_after, Nat.add_comm, parseHead_congr _ (Nat.le_succ_of_le hdrop) hdrop]

/-! ## The head -/

namespace HttpMsgType

variable (k : HttpMsgType)

/-- The message is before the end of its head. -/
def InHead (s : HttpBaseMsg) : Prop :=
  s.flag = k.line.first ∨ s.flag = k.line.second ∨ s.flag = k.line.third ∨ s.flag = .E_PARSE_HEAD

instance (s : HttpBaseMsg) : Decidable (k.InHead s) := inferInstanceAs (Decidable (_ ∨ _))

theorem inHead_clear : k.InHead k.clear := .inl (by cases k <;> rfl)

theorem bodysize_clear : k.clear.bodysize = -1 := by cases k <;> rfl

theorem body_clear : k.clear.body = ⟨0, 0⟩ := by cases k <;> rfl

theorem buffer_clear : k.clear.buffer = [] := by cases k <;> rfl

/-- What a byte of the head does. -/
def eat (s : HttpBaseMsg) (b : UInt8) : HttpBaseMsg :=
  if s.flag = k.line.first then if b = SP then endFirst k.line (s.write [b]) else s.write [b]
  else if s.flag = k.line.second then if b = SP then endSecond k.line (s.write [b]) else s.write [b]
  else if s.assistflag ∧ b = LF then
    let t := { s.write [b] with assistflag := false }
    if s.flag = k.line.third then t.endThird else t.endLine
  else s.inLine b

/-- The bytes of the head, and those behind it. -/
def eatAll : HttpBaseMsg → List UInt8 → HttpBaseMsg × List UInt8
  | s, [] => (s, [])
  | s, b :: bs => if k.InHead s then eatAll (k.eat s b) bs else (s, b :: bs)

theorem parse_of_first {s : HttpBaseMsg} (h : s.flag = k.line.first) (bs : List UInt8) :
    k.parse s bs = s.parseFirst k.line bs := by
  cases k <;> simp only [parse, HttpSvrRecvMsg.parse, HttpCliRecvMsg.parse, h] <;> rfl

theorem parse_of_second {s : HttpBaseMsg} (h : s.flag = k.line.second) (bs : List UInt8) :
    k.parse s bs = s.parseSecond k.line bs := by
  cases k <;> simp only [parse, HttpSvrRecvMsg.parse, HttpCliRecvMsg.parse, h] <;> rfl

theorem parse_of_third {s : HttpBaseMsg} (h : s.flag = k.line.third) (bs : List UInt8) :
    k.parse s bs = s.parseThird bs := by
  cases k <;> simp only [parse, HttpSvrRecvMsg.parse, HttpCliRecvMsg.parse, h] <;> rfl

theorem parse_of_head {s : HttpBaseMsg} (h : s.flag = .E_PARSE_HEAD) (bs : List UInt8) :
    k.parse s bs = parseHead bs.length s bs := by
  cases k <;> simp only [parse, HttpSvrRecvMsg.parse, HttpCliRecvMsg.parse, h]

theorem parse_of_body {s : HttpBaseMsg} (h : s.flag = .E_PARSE_BODY) (bs : List UInt8) :
    k.parse s bs = s.parseBody bs := by
  cases k <;> simp only [parse, HttpSvrRecvMsg.parse, HttpCliRecvMsg.parse, h]

theorem parse_of_over {s : HttpBaseMsg} (h : s.flag = .E_PARSE_OVER) (bs : List UInt8) :
    k.parse s bs = .ok (s, 0) := by
  cases k <;> simp only [parse, HttpSvrRecvMsg.parse, HttpCliRecvMsg.parse, h]

theorem endLine_flag (s : HttpBaseMsg) : s.endLine.flag = .E_PARSE_BODY ∨ s.endLine.flag = .E_PARSE_HEAD := by
  unfold endLine
  dsimp only
  split
  · exact .inl rfl
  · exact .inr rfl

theorem parse_nil {s : HttpBaseMsg} (h : k.InHead s ∨ s.flag = .E_PARSE_BODY) : k.parse s [] = .ok (s, 0) := by
  rcases h with (h | h | h | h) | h
  · rw [k.parse_of_first h, parseFirst_nil]
  · rw [k.parse_of_second h, parseSecond_nil]
  · rw [k.parse_of_third h, parseThird_nil]
  · rw [k.parse_of_head h, parseHead_nil]
  · rw [k.parse_of_body h, parseBody, if_pos rfl]

theorem parse_cons {s : HttpBaseMsg} (h : k.InHead s) (b : UInt8) (bs : List UInt8) :
    k.parse s (b :: bs) = Parsed.after 1 (k.parse (k.eat s b) bs) := by
  have h12 : k.line.first ≠ k.line.second := by cases k <;> decide
  have h13 : k.line.first ≠ k.line.third := by cases k <;> decide
  have h23 : k.line.second ≠ k.line.third := by cases k <;> decide
  have h1h : k.line.first ≠ .E_PARSE_HEAD := by cases k <;> decide
  have h2h : k.line.second ≠ .E_PARSE_HEAD := by cases k <;> decide
  have h3h : k.line.third ≠ .E_PARSE_HEAD := by cases k <;> decide
  rcases h with h | h | h | h
  · rw [k.parse_of_first h, parseFirst_cons, eat, if_pos h]
    split
    · rw [k.parse_of_second rfl]
    · rw [k.parse_of_first (show (s.write [b]).flag = _ from h)]
  · rw [k.parse_of_second h, parseSecond_cons, eat, h, if_neg h12.symm, if_pos rfl]
    split
    · rw [k.parse_of_third rfl]
    · rw [k.parse_of_second (show (s.write [b]).flag = _ from h)]
  · rw [k.parse_of_third h, parseThird_cons, eat, h, if_neg h13.symm, if_neg h23.symm]
    split
    · rw [if_pos rfl, k.parse_of_head rfl]
    · rw [k.parse_of_third (show (s.inLine b).flag = _ from h)]
  · rw [k.parse_of_head h, parseHead_cons, eat, h, if_neg h1h.symm, if_neg h2h.symm]
    split
    · rw [if_neg h3h.symm, afterLine]
      rcases endLine_flag { s.write [b] with assistflag := false } with hf | hf
      · rw [if_pos hf, k.parse_of_body hf]
      · rw [if_neg (by rw [hf]; decide), k.parse_of_head hf]
    · rw [k.parse_of_head (show (s.inLine b).flag = _ from h)]

theorem eatAll_length (s : HttpBaseMsg) (bs : List UInt8) : (k.eatAll s bs).2.length ≤ bs.length := by
  induction bs generalizing s with
  | nil => simp [eatAll]
  | cons b bs ih =>
    rw [eatAll]
    split
    · exact Nat.le_succ_of_le (ih _)
    · exact le_rfl

theorem parse_eatAll (s : HttpBaseMsg) (bs : List UInt8) :
    k.parse s bs = Parsed.after (bs.length - (k.eatAll s bs).2.length) (k.parse (k.eatAll s bs).1 (k.eatAll s bs).2) := by
  induction bs generalizing s with
  | nil => simp [eatAll]
  | cons b bs ih =>
    rw [eatAll]
    split
    · rename_i h
      have hle := k.eatAll_length (k.eat s b) bs
      rw [k.parse_cons h, ih, Parsed.after_after, List.length_cons]
      congr 1
      omega
    · simp

theorem eatAll_append (s : HttpBaseMsg) (l l' : List UInt8) :
    k.eatAll s (l ++ l') = if (k.eatAll s l).2 = [] then k.eatAll (k.eatAll s l).1 l'
      else ((k.eatAll s l).1, (k.eatAll s l).2 ++ l') := by
  induction l generalizing s with
  | nil => simp [eatAll]
  | cons b l ih =>
    rw [List.cons_append, eatAll, eatAll]
    split
    · exact ih _
    · rfl

/-- The head keeps to itself: only its end leads on, to a body that nothing is known of. -/
theorem eat_keeps {s : HttpBaseMsg} (h : k.InHead s) (b : UInt8) :
    (k.InHead (k.eat s b) ∨ (k.eat s b).flag = .E_PARSE_BODY) ∧ (k.eat s b).bodysize = s.bodysize ∧
      (k.eat s b).body = s.body ∧ (k.eat s b).buffer = s.buffer ++ [b] := by
  unfold eat
  split
  · split
    · exact ⟨.inl (.inr (.inl rfl)), rfl, rfl, rfl⟩
    · exact ⟨.inl h, rfl, rfl, rfl⟩
  · split
    · split
      · exact ⟨.inl (.inr (.inr (.inl rfl))), rfl, rfl, rfl⟩
      · exact ⟨.inl h, rfl, rfl, rfl⟩
    · split
      · dsimp only
        split
        · exact ⟨.inl (.inr (.inr (.inr rfl))), rfl, rfl, rfl⟩
        · have hf := endLine_flag { s.write [b] with assistflag := false }
          refine ⟨hf.symm.imp_left fun hf => .inr (.inr (.inr hf)), ?_⟩
          unfold endLine
          dsimp only
          split <;> exact ⟨rfl, rfl, rfl⟩
      · exact ⟨.inl h, rfl, rfl, rfl⟩

theorem eatAll_keeps {s : HttpBaseMsg} (h : k.InHead s ∨ s.flag = .E_PARSE_BODY) (bs : List UInt8) :
    (k.InHead (k.eatAll s bs).1 ∨ (k.eatAll s bs).1.flag = .E_PARSE_BODY) ∧ (k.eatAll s bs).1.bodysize = s.bodysize ∧
      (k.eatAll s bs).1.body = s.body ∧ (k.eatAll s bs).1.buffer ++ (k.eatAll s bs).2 = s.buffer ++ bs ∧
      ((k.eatAll s bs).2 ≠ [] → (k.eatAll s bs).1.flag = .E_PARSE_BODY) := by
  induction bs generalizing s with
  | nil => exact ⟨h, rfl, rfl, rfl, fun hn => absurd rfl hn⟩
  | cons b bs ih =>
    rw [eatAll]
    split
    · rename_i hh
      obtain ⟨h₁, h₂, h₃, h₄⟩ := k.eat_keeps hh b
      obtain ⟨i₁, i₂, i₃, i₄, i₅⟩ := ih h₁
      exact ⟨i₁, i₂.trans h₂, i₃.trans h₃, by rw [i₄, h₄, List.append_assoc, List.singleton_append], i₅⟩
    · rename_i hh
      exact ⟨h, rfl, rfl, rfl, fun _ => h.resolve_left hh⟩

end HttpMsgType

/-! ## The body -/

theorem checkLines_range {data : List UInt8} {l : List StrPos} {n : Int} (h : checkLines data l = .ok n) :
    -2 ^ 31 ≤ n ∧ n < 2 ^ 31 := by
  induction l with
  | nil =>
    cases h
    decide
  | cons iter l ih =>
    unfold checkLines at h
    split at h
    · exact ih h
    · split at h
      · rename_i ret hret
        unfold lineLen readLen at hret
        dsimp only at hret
        split at hret
        · cases hret
          split at h
          · cases h
            unfold Decimal.atoi i32
            omega
          · cases h
        · cases hret
      · exact ih h

/-- The message with `r` of a body of `len` bytes. -/
def HttpBaseMsg.inBody (s : HttpBaseMsg) (len : Int) (r : List UInt8) : HttpBaseMsg :=
  { s.write r with
    bodysize := len
    body := ⟨s.buffer.length, if (r.length : Int) = len then s.buffer.length + r.length else s.body.fin⟩
    flag := if (r.length : Int) = len then .E_PARSE_OVER else .E_PARSE_BODY }

theorem parseBody_inBody (s : HttpBaseMsg) {len : Int} {r₀ r : List UInt8} {n : Nat} (hlen : len < 2 ^ 31)
    (hn : (r₀.length + n : Int) = len) (h₀ : 0 < n) (hr : r ≠ []) :
    (s.inBody len r₀).parseBody r = .ok (s.inBody len (r₀ ++ r.take n), min n r.length) := by
  have hne : (r₀.length : Int) ≠ len := by omega
  have hcopy : i32 (len - ((s.inBody len r₀).buffer.length - (s.inBody len r₀).body.beg : Int)) = n := by
    have hb : ((s.inBody len r₀).buffer.length - (s.inBody len r₀).body.beg : Int) = r₀.length := by
      simp only [inBody, HttpBaseMsg.write, List.length_append]
      omega
    rw [hb, Bytes.i32_of_range (by omega) (by omega)]
    omega
  have hbody : (s.inBody len r₀).bodysize = len := rfl
  rw [parseBody, if_neg hr, hbody, if_neg (by omega), Except.ok_bind, hbody, if_neg (by omega), copyBody, hbody, hcopy]
  by_cases hlt : r.length < n
  · have hne' : ((r₀ ++ r).length : Int) ≠ len := by
      rw [List.length_append]
      omega
    rw [if_pos (by omega), List.take_of_length_le hlt.le, min_eq_right hlt.le]
    simp only [inBody, HttpBaseMsg.write, List.append_assoc, if_neg hne, if_neg hne']
  · have heq : ((r₀ ++ r.take n).length : Int) = len := by
      rw [List.length_append, List.length_take]
      omega
    rw [if_neg (by omega), if_neg (by omega), min_eq_left (by omega), Int.toNat_natCast]
    simp only [inBody, if_pos heq]
    simp only [HttpBaseMsg.write, List.append_assoc, List.length_append]

theorem parseBody_first {s : HttpBaseMsg} (hs : s.bodysize = -1) (hf : s.flag = .E_PARSE_BODY) {len : Int}
    (hc : s.checkContentLen = .ok len) {r : List UInt8} (hr : r ≠ []) :
    s.parseBody r = if len = 0 then .ok ({ s with bodysize := 0, flag := .E_PARSE_OVER }, 0)
      else if len < 0 then .error .outOfBounds else (s.inBody len []).parseBody r := by
  have hrange := checkLines_range hc
  rw [parseBody, if_neg hr, if_pos hs, beginBody, hc, Except.map, Except.ok_bind]
  by_cases h0 : len = 0
  · rw [if_pos h0, if_pos h0, if_pos h0, h0]
  · have hb : { s with bodysize := len, body := { s.body with beg := s.buffer.length } } = s.inBody len [] := by
      have hne : ((([] : List UInt8).length : Nat) : Int) ≠ len := by simpa using Ne.symm h0
      simp only [inBody, write_nil, if_neg hne, ← hf]
    rw [if_neg h0, if_neg h0, if_neg h0, hb]
    by_cases hneg : len < 0
    · have hcopy : i32 (len - ((s.inBody len []).buffer.length - (s.inBody len []).body.beg : Int)) = len := by
        rw [show ((s.inBody len []).buffer.length - (s.inBody len []).body.beg : Int) = 0 by simp [inBody, HttpBaseMsg.write],
          Int.sub_zero, Bytes.i32_of_range hrange.1 hrange.2]
      rw [if_pos hneg, copyBody, show (s.inBody len []).bodysize = len from rfl, hcopy, if_neg (by omega), if_pos hneg]
    · rw [if_neg hneg, parseBody, if_neg hr, show (s.inBody len []).bodysize = len from rfl, if_neg (by omega),
        Except.ok_bind, show (s.inBody len []).bodysize = len from rfl, if_neg h0]

theorem parseBody_behind {s : HttpBaseMsg} (hs : s.bodysize = -1) (hf : s.flag = .E_PARSE_BODY) {r : List UInt8}
    (hr : r ≠ []) : s.parseBody r = s.checkContentLen >>= fun len =>
      if len = 0 then .ok ({ s with bodysize := 0, flag := .E_PARSE_OVER }, 0)
      else if len < 0 then .error .outOfBounds
      else .ok (s.inBody len (r.take len.toNat), min len.toNat r.length) := by
  cases hc : s.checkContentLen with
  | error e =>
    rw [parseBody, if_neg hr, if_pos hs, beginBody, hc]
    rfl
  | ok len =>
    rw [parseBody_first hs hf hc hr, Except.ok_bind]
    split
    · rfl
    · split
      · rfl
      · rw [parseBody_inBody s (checkLines_range hc).2 (n := len.toNat) (by simp; omega) (by omega) hr, List.nil_append]

/-! ## Chunks -/

/-- Parse is called on the chunks in order, and uses each of them up. -/
def HttpMsgType.feed (k : HttpMsgType) : HttpBaseMsg → List (List UInt8) → Option HttpBaseMsg
  | s, [] => some s
  | s, c :: cs => match k.parse s c with
    | .ok (s', n) => if n = c.length then k.feed s' cs else none
    | .error _ => none

/-- The chunks are used up and leave the message as one call on all their bytes does. -/
def HttpMsgType.ChunkFree (k : HttpMsgType) (cs : List (List UInt8)) : Prop :=
  ∃ s n, k.feed k.clear cs = some s ∧ k.parse k.clear cs.flatten = .ok (s, n)

/-- The message with all that follows its head, when it has room for it. -/
def HttpBaseMsg.withBody (s : HttpBaseMsg) (r : List UInt8) : Option HttpBaseMsg :=
  match s.checkContentLen with
  | .ok len => if 0 < len ∧ (r.length : Int) ≤ len then some (s.inBody len r) else none
  | .error _ => none

namespace HttpMsgType

variable (k : HttpMsgType)

theorem feed_inBody (s : HttpBaseMsg) {len : Int} {r₀ : List UInt8} (hlen : len < 2 ^ 31) (h₀ : (r₀.length : Int) ≤ len)
    {cs : List (List UInt8)} (hcs : ∀ c ∈ cs, c ≠ []) :
    k.feed (s.inBody len r₀) cs =
      if ((r₀ ++ cs.flatten).length : Int) ≤ len then some (s.inBody len (r₀ ++ cs.flatten)) else none := by
  induction cs generalizing r₀ with
  | nil => simp [feed, h₀]
  | cons c cs ih =>
    have hc := List.length_pos_iff.mpr (hcs c (by simp))
    obtain ⟨n, hn⟩ : ∃ n : Nat, (r₀.length + n : Int) = len := ⟨(len - r₀.length).toNat, by omega⟩
    by_cases hover : n = 0
    · have hflag : (s.inBody len r₀).flag = .E_PARSE_OVER := if_pos (by omega)
      rw [feed, k.parse_of_over hflag]
      dsimp only
      rw [if_neg (by omega), if_neg]
      simp only [List.length_append, List.flatten_cons]
      omega
    · have hflag : (s.inBody len r₀).flag = .E_PARSE_BODY := if_neg (by omega)
      rw [feed, k.parse_of_body hflag, parseBody_inBody s hlen hn (by omega) (hcs c (by simp))]
      dsimp only
      by_cases hle : c.length ≤ n
      · rw [min_eq_right hle, if_pos rfl, List.take_of_length_le hle,
          ih (by rw [List.length_append]; omega) fun d hd => hcs d (List.mem_cons_of_mem _ hd)]
        simp only [List.flatten_cons, List.append_assoc]
      · rw [min_eq_left (by omega), if_neg (by omega), if_neg]
        simp only [List.length_append, List.flatten_cons]
        omega

/-- Where the chunks end makes no difference. -/
theorem feed_eq {s : HttpBaseMsg} (h : k.InHead s ∨ s.flag = .E_PARSE_BODY) (hs : s.bodysize = -1)
    {cs : List (List UInt8)} (hcs : ∀ c ∈ cs, c ≠ []) :
    k.feed s cs = if (k.eatAll s cs.flatten).2 = [] then some (k.eatAll s cs.flatten).1
      else (k.eatAll s cs.flatten).1.withBody (k.eatAll s cs.flatten).2 := by
  induction cs generalizing s with
  | nil => rfl
  | cons c cs ih =>
    have hc := hcs c (by simp)
    have hcs' : ∀ d ∈ cs, d ≠ [] := fun d hd => hcs d (List.mem_cons_of_mem _ hd)
    obtain ⟨h₁, h₂, -, -, h₅⟩ := k.eatAll_keeps h c
    have hle := k.eatAll_length s c
    rw [feed, k.parse_eatAll, List.flatten_cons, k.eatAll_append]
    generalize k.eatAll s c = e at h₁ h₂ h₅ hle
    obtain ⟨s', r⟩ := e
    dsimp only at h₁ h₂ h₅ hle ⊢
    by_cases hr : r = []
    · subst hr
      rw [k.parse_nil h₁, if_pos rfl, Parsed.after_ok]
      dsimp only
      rw [if_pos (by simp), ih h₁ (h₂.trans hs) hcs']
    · have hrl := List.length_pos_iff.mpr hr
      have hf := h₅ hr
      rw [if_neg hr, if_neg fun h => hr (List.append_eq_nil_iff.mp h).1, k.parse_of_body hf, withBody,
        parseBody_behind (h₂.trans hs) hf hr]
      cases hcl : s'.checkContentLen with
      | error e => rfl
      | ok len =>
        have hlen := (checkLines_range hcl).2
        rw [Except.ok_bind]
        dsimp only
        rcases lt_trichotomy len 0 with hneg | rfl | hpos
        · rw [if_neg hneg.ne, if_pos hneg, Parsed.after_error, if_neg fun h => by omega]
        · rw [if_pos rfl, Parsed.after_ok, if_neg fun h => by omega]
          dsimp only
          rw [if_neg (by omega)]
        · obtain ⟨n, rfl⟩ := Int.eq_ofNat_of_zero_le hpos.le
          rw [if_neg hpos.ne', if_neg (by omega), Int.toNat_natCast, Parsed.after_ok]
          dsimp only
          by_cases hfit : r.length ≤ n
          · rw [min_eq_right hfit, if_pos (by omega), List.take_of_length_le hfit,
              k.feed_inBody s' hlen (by exact_mod_cast hfit) hcs']
            simp only [hpos, true_and]
          · rw [min_eq_left (by omega), if_neg (by omega), if_neg]
            simp only [List.length_append, Nat.cast_add]
            omega

end HttpMsgType

end GlobalServer.Http

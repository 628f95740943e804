import GlobalServer.Netio.HttpMsgSound
import Mathlib.Data.List.DropRight
import Mathlib.Data.List.Forall2
import Mathlib.Data.List.Infix

/-!
# Whole messages, and messages in chunks

An HTTP message is a start line of three parts, header lines, an empty line and
a body of the length that a Content-Length header announces. `contentLen` is
what the code makes of the header lines; it is not what HTTP makes of them.
-/

namespace GlobalServer.Http

open Bytes (Fault i32)
open HttpBaseMsg

/-! ## Messages -/

/-- No CRLF inside of a line. -/
def NoBreak (l : List UInt8) : Prop := ¬ [CR, LF] <:+: l

instance (l : List UInt8) : Decidable (NoBreak l) := inferInstanceAs (Decidable (¬ _))

def COLON : UInt8 := 58

def lower (b : UInt8) : UInt8 := if 65 ≤ b ∧ b ≤ 90 then b + 32 else b

def isBlank (b : UInt8) : Bool := b = SP ∨ b = 9

def fieldName (l : List UInt8) : List UInt8 := (l.takeWhile (· ≠ COLON)).map lower

def fieldValue (l : List UInt8) : List UInt8 :=
  ((l.dropWhile (· ≠ COLON)).tail.dropWhile isBlank).rdropWhile isBlank

/-- A Content-Length header, in whatever letters it is written. -/
def IsContentLength (l : List UInt8) : Prop := COLON ∈ l ∧ fieldName l = (constr.take 14).map lower

instance (l : List UInt8) : Decidable (IsContentLength l) := inferInstanceAs (Decidable (_ ∧ _))

def IsLength (v : List UInt8) : Prop := v ≠ [] ∧ v.all Decimal.isDigit

instance (v : List UInt8) : Decidable (IsLength v) := inferInstanceAs (Decidable (_ ∧ _))

structure Message where
  first : List UInt8
  second : List UInt8
  third : List UInt8
  headers : List (List UInt8)
  body : List UInt8
  first_word : SP ∉ first
  second_word : SP ∉ second
  third_line : NoBreak third
  header_line : ∀ l ∈ headers, l ≠ [] ∧ NoBreak l
  /-- Each Content-Length is the length of the body, -/
  length : ∀ l ∈ headers, IsContentLength l → IsLength (fieldValue l) ∧ Decimal.digits 0 (fieldValue l) = body.length
  /-- and a body has one. -/
  announced : body ≠ [] → ∃ l ∈ headers, IsContentLength l

def withCRLF (l : List UInt8) : List UInt8 := l ++ [CR, LF]

/-- A start line and header lines, whatever they say. -/
structure Head where
  first : List UInt8
  second : List UInt8
  third : List UInt8
  headers : List (List UInt8)
  first_word : SP ∉ first
  second_word : SP ∉ second
  third_line : NoBreak third
  header_line : ∀ l ∈ headers, l ≠ [] ∧ NoBreak l

namespace Head

variable (h : Head)

def startLine : List UInt8 := h.first ++ SP :: (h.second ++ SP :: withCRLF h.third)

def bytes : List UInt8 := h.startLine ++ ((h.headers.map withCRLF).flatten ++ withCRLF [])

/-- Where the parts of the start line are in it. -/
def parts : StrPos × StrPos × StrPos :=
  (⟨0, h.first.length⟩, ⟨h.first.length + 1, h.first.length + 1 + h.second.length⟩,
    ⟨h.first.length + 1 + h.second.length + 1, h.first.length + 1 + h.second.length + 1 + h.third.length⟩)

end Head

namespace Message

variable (m : Message)

def startLine : List UInt8 := m.first ++ SP :: (m.second ++ SP :: withCRLF m.third)

def head : List UInt8 := m.startLine ++ ((m.headers.map withCRLF).flatten ++ withCRLF [])

def bytes : List UInt8 := m.head ++ m.body

end Message

/-! ## The length that the code reads -/

/-- What `_CheckContentLen` reads in header lines: the first line of at least sixteen bytes that begins like
"Content-Length" counts, whatever the two bytes behind that are. -/
def contentLen : List (List UInt8) → Except Fault Int
  | [] => .ok 0
  | l :: ls =>
    if 16 ≤ l.length ∧ l.take 14 = constr.take 14 then readLen ((l.drop 16).takeWhile (· ≠ CR)) else contentLen ls

/-- The comparison forgives a difference at the last byte. -/
theorem compareConstr_append {p q : List UInt8} (hp : SP ∉ p) (hn : p ≠ []) (hq : q.length = p.length) (t x : List UInt8) :
    ((compareConstr (p ++ SP :: t) (q ++ x)).1.head? = some SP ↔ q.dropLast = p.dropLast) ∧
      (q.dropLast = p.dropLast → (compareConstr (p ++ SP :: t) (q ++ x)).2 = x) := by
  induction p generalizing q with
  | nil => exact absurd rfl hn
  | cons c p ih =>
    obtain ⟨b, q, rfl⟩ := List.exists_cons_of_length_pos (by rw [hq]; simp : 0 < q.length)
    have hc : c ≠ SP := fun h => hp (h ▸ List.mem_cons_self)
    have hq' : q.length = p.length := by simpa using hq
    rw [List.cons_append, List.cons_append, compareConstr, if_neg hc]
    by_cases hpe : p = []
    · obtain rfl : q = [] := List.length_eq_zero_iff.mp (by rw [hq', hpe, List.length_nil])
      subst hpe
      have hx : compareConstr (SP :: t) x = (SP :: t, x) := by cases x <;> simp [compareConstr]
      split <;> simp [hx]
    · have hqe : q ≠ [] := fun h => hpe (List.length_eq_zero_iff.mp (by rw [← hq', h, List.length_nil]))
      rw [List.dropLast_cons_of_ne_nil hpe, List.dropLast_cons_of_ne_nil hqe]
      by_cases hb : b = c
      · rw [if_neg (not_not.mpr hb), hb]
        simpa using ih (fun h => hp (List.mem_cons_of_mem _ h)) hpe hq'
      · rw [if_pos hb]
        obtain ⟨d, p, rfl⟩ := List.exists_cons_of_ne_nil hpe
        have hd : d ≠ SP := fun h => hp (h ▸ List.mem_cons_of_mem _ List.mem_cons_self)
        simp [hb, hd]

theorem lineLen_line {l : List UInt8} (hl : 16 ≤ l.length) (x : List UInt8) :
    lineLen (withCRLF l ++ x) =
      if l.take 14 = constr.take 14 then some (readLen ((l.drop 16).takeWhile (· ≠ CR))) else none := by
  have hsplit : withCRLF l ++ x = l.take 15 ++ (l.drop 15 ++ CR :: LF :: x) := by
    rw [← List.append_assoc, List.take_append_drop, withCRLF]
    simp
  obtain ⟨hhead, htail⟩ := compareConstr_append (p := constr.take 15) (q := l.take 15) (by decide) (by decide)
    (by rw [List.length_take, min_eq_left (by omega)]; rfl) [] (l.drop 15 ++ CR :: LF :: x)
  have hconstr : constr.take 15 ++ [SP] = constr := by decide
  have hlast : (l.take 15).dropLast = l.take 14 := by
    rw [List.dropLast_take (by omega)]
  rw [hconstr, ← hsplit, hlast, show (constr.take 15).dropLast = constr.take 14 by decide] at hhead htail
  unfold lineLen
  generalize compareConstr constr (withCRLF l ++ x) = r at hhead htail
  obtain ⟨psrc, pbeg⟩ := r
  dsimp only at hhead htail ⊢
  by_cases h14 : l.take 14 = constr.take 14
  · have hvalue : pbeg.tail.takeWhile (· ≠ CR) = (l.drop 16).takeWhile (· ≠ CR) := by
      obtain ⟨b, t, ht⟩ := List.exists_cons_of_length_pos (by rw [List.length_drop]; omega : 0 < (l.drop 15).length)
      have ht' : l.drop 16 = t := by
        rw [show 16 = 15 + 1 from rfl, ← List.drop_drop, ht]
        rfl
      rw [htail h14, ht, ht', List.cons_append, List.tail_cons, List.takeWhile_append]
      split
      · rename_i hall
        rw [List.takeWhile_cons_of_neg (by decide), List.append_nil]
        exact (List.takeWhile_prefix _).eq_of_length hall |>.symm
      · rfl
    rw [if_pos (hhead.mpr h14), if_pos h14, hvalue]
  · rw [if_neg (mt hhead.mp h14), if_neg h14]

/-- The positions of the header lines in the buffer. -/
def Lists (buffer : List UInt8) (vec : List StrPos) (lines : List (List UInt8)) : Prop :=
  List.Forall₂ (fun p l => p.fin - p.beg = l.length + 2 ∧ withCRLF l <+: buffer.drop p.beg) vec lines

theorem checkLines_lists {buffer : List UInt8} {vec : List StrPos} {lines : List (List UInt8)}
    (h : Lists buffer vec lines) : checkLines buffer vec = contentLen lines := by
  induction h with
  | nil => rfl
  | @cons p l vec lines hp h ih =>
    obtain ⟨hlen, x, hx⟩ := hp
    rw [checkLines, contentLen, hlen, ih]
    by_cases hl : 16 ≤ l.length
    · rw [if_neg (by omega), ← hx, lineLen_line hl]
      by_cases h14 : l.take 14 = constr.take 14
      · rw [if_pos h14, if_pos (show 16 ≤ l.length ∧ l.take 14 = constr.take 14 from ⟨hl, h14⟩)]
      · rw [if_neg h14, if_neg fun h => h14 h.2]
    · rw [if_pos (by omega), if_neg fun h => hl h.1]

theorem Lists.append {buffer : List UInt8} {vec : List StrPos} {lines : List (List UInt8)} (h : Lists buffer vec lines)
    (x : List UInt8) : Lists (buffer ++ x) vec lines := by
  refine List.Forall₂.imp (fun p l hp => ⟨hp.1, ?_⟩) h
  have hbeg : p.beg ≤ buffer.length := by
    by_contra hlt
    have := hp.2.length_le
    rw [List.drop_eq_nil_of_le (by omega)] at this
    simp [withCRLF] at this
  rw [List.drop_append_of_le_length hbeg]
  exact hp.2.trans (List.prefix_append _ _)

/-! ## The message after its head -/

namespace HttpMsgType

variable (k : HttpMsgType)

theorem eatAll_first {s : HttpBaseMsg} (hs : s.flag = k.line.first) {l : List UInt8} (hl : SP ∉ l) (x : List UInt8) :
    k.eatAll s (l ++ SP :: x) = k.eatAll (endFirst k.line (s.write (l ++ [SP]))) x := by
  induction l generalizing s with
  | nil => rw [List.nil_append, List.nil_append, eatAll, if_pos (.inl hs), eat, if_pos hs, if_pos rfl]
  | cons b l ih =>
    have hb : b ≠ SP := fun h => hl (h ▸ List.mem_cons_self)
    rw [List.cons_append, eatAll, if_pos (.inl hs), eat, if_pos hs, if_neg hb,
      ih (show (s.write [b]).flag = _ from hs) fun h => hl (List.mem_cons_of_mem _ h), HttpBaseMsg.write_write]
    rfl

theorem eatAll_second {s : HttpBaseMsg} (hs : s.flag = k.line.second) {l : List UInt8} (hl : SP ∉ l) (x : List UInt8) :
    k.eatAll s (l ++ SP :: x) = k.eatAll (endSecond k.line (s.write (l ++ [SP]))) x := by
  have h12 : s.flag ≠ k.line.first := by rw [hs]; cases k <;> decide
  induction l generalizing s with
  | nil => rw [List.nil_append, List.nil_append, eatAll, if_pos (.inr (.inl hs)), eat, if_neg h12, if_pos hs, if_pos rfl]
  | cons b l ih =>
    have hb : b ≠ SP := fun h => hl (h ▸ List.mem_cons_self)
    rw [List.cons_append, eatAll, if_pos (.inr (.inl hs)), eat, if_neg h12, if_pos hs, if_neg hb,
      ih (show (s.write [b]).flag = _ from hs) (fun h => hl (List.mem_cons_of_mem _ h)) h12, HttpBaseMsg.write_write]
    rfl

theorem eatAll_line {s : HttpBaseMsg} (hs : s.flag = k.line.third ∨ s.flag = .E_PARSE_HEAD) {l : List UInt8}
    (hl : NoBreak l) (ha : ¬ (s.assistflag ∧ l.head? = some LF)) (x : List UInt8) :
    k.eatAll s (withCRLF l ++ x) = k.eatAll (if s.flag = k.line.third
      then ({ s.write (withCRLF l) with assistflag := false } : HttpBaseMsg).endThird
      else ({ s.write (withCRLF l) with assistflag := false } : HttpBaseMsg).endLine) x := by
  have h1 : s.flag ≠ k.line.first := by rcases hs with hs | hs <;> rw [hs] <;> cases k <;> decide
  have h2 : s.flag ≠ k.line.second := by rcases hs with hs | hs <;> rw [hs] <;> cases k <;> decide
  have hh : k.InHead s := .inr (.inr hs)
  induction l generalizing s with
  | nil =>
    have hcr : k.eat s CR = s.inLine CR := by
      rw [eat, if_neg h1, if_neg h2, if_neg fun h => absurd h.2 (by decide)]
    have hlf : k.eat (s.inLine CR) LF = if s.flag = k.line.third
        then ({ s.write (withCRLF []) with assistflag := false } : HttpBaseMsg).endThird
        else ({ s.write (withCRLF []) with assistflag := false } : HttpBaseMsg).endLine := by
      rw [eat, if_neg (show (s.inLine CR).flag ≠ _ from h1), if_neg (show (s.inLine CR).flag ≠ _ from h2),
        if_pos ⟨by simp [inLine], rfl⟩]
      simp [inLine, HttpBaseMsg.write, withCRLF]
    rw [withCRLF, List.nil_append, List.cons_append, eatAll, if_pos hh, hcr, List.cons_append, eatAll,
      if_pos (show k.InHead (s.inLine CR) from hh), hlf]
    rfl
  | cons b l ih =>
    have hb : k.eat s b = s.inLine b := by rw [eat, if_neg h1, if_neg h2, if_neg (by simpa using ha)]
    have hl' : NoBreak l := fun h => hl (List.infix_cons h)
    have ha' : ¬ ((s.inLine b).assistflag ∧ l.head? = some LF) := by
      rintro ⟨hcr, hlf⟩
      obtain ⟨t, rfl⟩ := List.head?_eq_some_iff.mp hlf
      obtain rfl : b = CR := by simpa [inLine] using hcr
      exact hl ⟨[], t, rfl⟩
    have hw : ({ (s.inLine b).write (withCRLF l) with assistflag := false } : HttpBaseMsg) =
        { s.write (withCRLF (b :: l)) with assistflag := false } := by
      simp [inLine, HttpBaseMsg.write, withCRLF]
    rw [show withCRLF (b :: l) ++ x = b :: (withCRLF l ++ x) from rfl, eatAll, if_pos hh, hb,
      ih (show (s.inLine b).flag = _ ∨ _ from hs) hl' ha' h1 h2 hh, hw]
    rfl

end HttpMsgType

/-- The message before a header line, with the lines it has. -/
structure AtLine (s : HttpBaseMsg) (lines : List (List UInt8)) : Prop where
  flag : s.flag = .E_PARSE_HEAD
  assistflag : s.assistflag = false
  header2 : s.header2.beg = s.buffer.length
  lists : Lists s.buffer s.headerVec lines

def HttpBaseMsg.lineDone (s : HttpBaseMsg) (l : List UInt8) : HttpBaseMsg :=
  ({ s.write (withCRLF l) with assistflag := false } : HttpBaseMsg).endLine

def HttpBaseMsg.parts (s : HttpBaseMsg) : StrPos × StrPos × StrPos := (s.first, s.second, s.third)

theorem parts_lineDone (s : HttpBaseMsg) (l : List UInt8) : (s.lineDone l).parts = s.parts := by
  unfold HttpBaseMsg.lineDone endLine
  dsimp only
  split <;> rfl

theorem length_withCRLF (l : List UInt8) : (withCRLF l).length = l.length + 2 := by simp [withCRLF]

namespace AtLine

variable {s : HttpBaseMsg} {lines : List (List UInt8)} {l : List UInt8}

theorem lists_done (h : AtLine s lines) : Lists (s.lineDone l).buffer (s.lineDone l).headerVec (lines ++ [l]) := by
  have hvec : (s.lineDone l).buffer = s.buffer ++ withCRLF l ∧
      (s.lineDone l).headerVec = s.headerVec ++ [⟨s.buffer.length, s.buffer.length + (l.length + 2)⟩] := by
    unfold HttpBaseMsg.lineDone endLine
    dsimp only
    split <;> simp [HttpBaseMsg.write, length_withCRLF, h.header2]
  rw [hvec.1, hvec.2]
  refine List.rel_append (h.lists.append _) (.cons ⟨?_, ?_⟩ .nil)
  · simp
  · simp

theorem done (h : AtLine s lines) (hl : l ≠ []) : AtLine (s.lineDone l) (lines ++ [l]) := by
  have hlen := List.length_pos_iff.mpr hl
  refine ⟨?_, ?_, ?_, h.lists_done⟩ <;> unfold HttpBaseMsg.lineDone endLine <;> dsimp only <;>
    rw [if_neg (by simp only [HttpBaseMsg.write, List.length_append, length_withCRLF, h.header2]; omega)]

theorem last (h : AtLine s lines) : (s.lineDone []).flag = .E_PARSE_BODY := by
  unfold HttpBaseMsg.lineDone endLine
  dsimp only
  rw [if_pos (by simp only [HttpBaseMsg.write, List.length_append, length_withCRLF, h.header2]; rfl)]

theorem eat (k : HttpMsgType) (h : AtLine s lines) (hl : NoBreak l) (x : List UInt8) :
    k.eatAll s (withCRLF l ++ x) = k.eatAll (s.lineDone l) x := by
  have h3 : s.flag ≠ k.line.third := by rw [h.flag]; cases k <;> decide
  rw [k.eatAll_line (.inr h.flag) hl (by simp [h.assistflag]), if_neg h3]
  rfl

theorem eat_headers (k : HttpMsgType) {headers : List (List UInt8)} (h : AtLine s lines)
    (hh : ∀ l ∈ headers, l ≠ [] ∧ NoBreak l) :
    ∃ t, AtLine t (lines ++ headers) ∧ t.parts = s.parts ∧
      ∀ x, k.eatAll s ((headers.map withCRLF).flatten ++ x) = k.eatAll t x := by
  induction headers generalizing s lines with
  | nil => exact ⟨s, by simpa using h, rfl, fun x => rfl⟩
  | cons l headers ih =>
    obtain ⟨hne, hl⟩ := hh l (by simp)
    obtain ⟨t, ht, hp, he⟩ := ih (h.done hne) fun l hl => hh l (List.mem_cons_of_mem _ hl)
    refine ⟨t, by simpa using ht, hp.trans (parts_lineDone s l), fun x => ?_⟩
    rw [List.map_cons, List.flatten_cons, List.append_assoc, h.eat k hl, he]

end AtLine

theorem contentLen_concat (lines : List (List UInt8)) : contentLen (lines ++ [[]]) = contentLen lines := by
  induction lines with
  | nil => rfl
  | cons l lines ih => rw [List.cons_append, contentLen, contentLen, ih]

theorem Head.eatAll_startLine (k : HttpMsgType) (m : Head) :
    ∃ s, AtLine s [] ∧ s.parts = m.parts ∧ ∀ x, k.eatAll k.clear (m.startLine ++ x) = k.eatAll s x := by
  have hf : k.clear.flag = k.line.first := by cases k <;> rfl
  have ha : k.clear.assistflag = false := by cases k <;> rfl
  have hv : k.clear.headerVec = [] := by cases k <;> rfl
  have hp : k.clear.parts = (⟨0, 0⟩, ⟨0, 0⟩, ⟨0, 0⟩) := by cases k <;> rfl
  have he : ∀ x, k.eatAll k.clear (m.startLine ++ x) =
      k.eatAll (endSecond k.line ((endFirst k.line (k.clear.write (m.first ++ [SP]))).write (m.second ++ [SP])))
        (withCRLF m.third ++ x) := by
    intro x
    rw [Head.startLine, List.append_assoc, List.cons_append, k.eatAll_first hf m.first_word, List.append_assoc,
      List.cons_append, k.eatAll_second rfl m.second_word]
  generalize hs : endSecond k.line _ = s at he
  have hfs : s.flag = k.line.third := by rw [← hs]; rfl
  have has : s.assistflag = false := by rw [← hs]; exact ha
  have hvs : s.headerVec = [] := by rw [← hs]; exact hv
  refine ⟨({ s.write (withCRLF m.third) with assistflag := false } : HttpBaseMsg).endThird, ⟨rfl, rfl, rfl, ?_⟩,
    ?_, fun x => ?_⟩
  · show Lists _ s.headerVec []
    rw [hvs]
    exact .nil
  · rw [← hs]
    simp only [HttpBaseMsg.parts, Prod.mk.injEq] at hp
    simp only [HttpBaseMsg.parts, Head.parts, endThird, endSecond, endFirst, HttpBaseMsg.write, hp, k.buffer_clear]
    simp only [List.nil_append, List.length_append, List.length_singleton, length_withCRLF, Nat.add_sub_cancel,
      Prod.mk.injEq, StrPos.mk.injEq, true_and]
    omega
  · rw [he, k.eatAll_line (.inl hfs) m.third_line (by simp [has]), if_pos hfs]

/-- The message behind a head. -/
structure Head.Read (h : Head) (s : HttpBaseMsg) : Prop where
  flag : s.flag = .E_PARSE_BODY
  lists : Lists s.buffer s.headerVec (h.headers ++ [[]])
  bodysize : s.bodysize = -1
  body : s.body = ⟨0, 0⟩
  buffer : s.buffer = h.bytes
  parts : s.parts = h.parts

/-- The message behind its head. -/
structure AtBody (s : HttpBaseMsg) (m : Message) : Prop where
  flag : s.flag = .E_PARSE_BODY
  length : s.checkContentLen = contentLen m.headers
  bodysize : s.bodysize = -1
  body : s.body = ⟨0, 0⟩
  buffer : s.buffer = m.head

theorem HttpMsgType.eatAll_body (k : HttpMsgType) {s : HttpBaseMsg} (hs : s.flag = .E_PARSE_BODY) (x : List UInt8) :
    k.eatAll s x = (s, x) := by
  cases x with
  | nil => rfl
  | cons b x =>
    have hn : ¬ k.InHead s := by
      unfold HttpMsgType.InHead
      rw [hs]
      cases k <;> decide
    rw [eatAll, if_neg hn]

theorem Head.eatAll_bytes (k : HttpMsgType) (h : Head) :
    ∃ s, h.Read s ∧ ∀ x, k.eatAll k.clear (h.bytes ++ x) = (s, x) := by
  obtain ⟨s₁, h₁, hp₁, he₁⟩ := h.eatAll_startLine k
  obtain ⟨s₂, h₂, hp₂, he₂⟩ := h₁.eat_headers k h.header_line
  have he : ∀ x, k.eatAll k.clear (h.bytes ++ x) = (s₂.lineDone [], x) := by
    intro x
    rw [Head.bytes, List.append_assoc, he₁, List.append_assoc, he₂, h₂.eat k (by decide), k.eatAll_body h₂.last]
  have hkeeps := k.eatAll_keeps (.inl k.inHead_clear) h.bytes
  have hhead := he []
  rw [List.append_nil] at hhead
  rw [hhead, k.bodysize_clear, k.body_clear, k.buffer_clear, List.append_nil, List.nil_append] at hkeeps
  obtain ⟨-, hsize, hbody, hbuf, -⟩ := hkeeps
  exact ⟨s₂.lineDone [], ⟨h₂.last, by simpa using h₂.lists_done, hsize, hbody, hbuf,
    (parts_lineDone s₂ []).trans (hp₂.trans hp₁)⟩, he⟩

theorem Head.Read.checkContentLen {h : Head} {s : HttpBaseMsg} (hs : h.Read s) :
    s.checkContentLen = contentLen h.headers := by
  rw [HttpBaseMsg.checkContentLen, checkLines_lists hs.lists, contentLen_concat]

/-- The head of a message without what it says of the body. -/
def Message.toHead (m : Message) : Head := { m with }

theorem eatAll_head (k : HttpMsgType) (m : Message) :
    ∃ s, AtBody s m ∧ ∀ x, k.eatAll k.clear (m.head ++ x) = (s, x) := by
  obtain ⟨s, hs, he⟩ := m.toHead.eatAll_bytes k
  exact ⟨s, ⟨hs.flag, hs.checkContentLen, hs.bodysize, hs.body, hs.buffer⟩, he⟩

/-! ## Chunks of a message -/

theorem Head.eatAll_prefix (k : HttpMsgType) (h : Head) {w body : List UInt8} (hw : w <+: h.bytes ++ body) :
    if w.length ≤ h.bytes.length then (k.eatAll k.clear w).2 = []
    else h.Read (k.eatAll k.clear w).1 ∧ (k.eatAll k.clear w).2 = w.drop h.bytes.length ∧
      (k.eatAll k.clear w).2 ≠ [] := by
  obtain ⟨s, hs, he⟩ := h.eatAll_bytes k
  split
  · rename_i hle
    obtain ⟨t, ht⟩ := List.prefix_of_prefix_length_le hw (List.prefix_append h.bytes body) hle
    have hend := he []
    rw [List.append_nil, ← ht, k.eatAll_append] at hend
    split at hend
    · assumption
    · exact (List.append_eq_nil_iff.mp (congrArg Prod.snd hend)).1
  · rename_i hlt
    obtain ⟨r, rfl⟩ := List.prefix_of_prefix_length_le (List.prefix_append h.bytes body) hw (by omega)
    rw [he, List.drop_left]
    refine ⟨hs, rfl, fun hr => hlt ?_⟩
    rw [show r = [] from hr, List.append_nil]

theorem eatAll_prefix (k : HttpMsgType) (m : Message) {w : List UInt8} (hw : w <+: m.bytes) :
    if w.length ≤ m.head.length then (k.eatAll k.clear w).2 = []
    else (k.eatAll k.clear w).2 = w.drop m.head.length ∧ (k.eatAll k.clear w).2 ≠ [] ∧
      (k.eatAll k.clear w).1.checkContentLen = contentLen m.headers := by
  have h := m.toHead.eatAll_prefix k (show w <+: m.toHead.bytes ++ m.body from hw)
  rw [show m.toHead.bytes = m.head from rfl] at h
  split at h
  · rwa [if_pos (by assumption)]
  · rw [if_neg (by assumption)]
    exact ⟨h.2.1, h.2.2, h.1.checkContentLen⟩

theorem HttpMsgType.chunkFree_iff (k : HttpMsgType) {cs : List (List UInt8)} (hcs : ∀ c ∈ cs, c ≠ []) :
    k.ChunkFree cs ↔ (k.feed k.clear cs).isSome := by
  refine ⟨fun ⟨s, n, h, _⟩ => by rw [h]; rfl, fun h => ?_⟩
  obtain ⟨s, hs⟩ := Option.isSome_iff_exists.mp h
  by_cases hw : cs.flatten = []
  · obtain rfl : cs = [] := by
      cases cs with
      | nil => rfl
      | cons c cs => exact absurd (List.append_eq_nil_iff.mp hw).1 (hcs c (by simp))
    obtain rfl : k.clear = s := by simpa [feed] using hs
    exact ⟨_, 0, hs, k.parse_nil (.inl k.inHead_clear)⟩
  · have hone : k.feed k.clear [cs.flatten] = some s := by
      rw [← hs, k.feed_eq (.inl k.inHead_clear) k.bodysize_clear (by simpa using hw),
        k.feed_eq (.inl k.inHead_clear) k.bodysize_clear hcs, List.flatten_singleton]
    unfold feed at hone
    split at hone
    · rename_i s' n hp
      split at hone
      · obtain rfl : s' = s := by simpa [feed] using hone
        exact ⟨s', n, hs, hp⟩
      · cases hone
    · cases hone

/-- A message, or a part of one, is parsed from chunks as from one of them unless its body has begun and the code reads
no length, or one that the bytes of the body exceed. -/
theorem message_chunkFree_iff (k : HttpMsgType) (m : Message) {w : List UInt8} (hw : w <+: m.bytes)
    {cs : List (List UInt8)} (hcs : ∀ c ∈ cs, c ≠ []) (hflat : cs.flatten = w) :
    k.ChunkFree cs ↔ (m.head.length < w.length →
      ∃ len, contentLen m.headers = .ok len ∧ 0 < len ∧ (w.length - m.head.length : Int) ≤ len) := by
  have he := eatAll_prefix k m hw
  rw [k.chunkFree_iff hcs, k.feed_eq (.inl k.inHead_clear) k.bodysize_clear hcs, hflat]
  split at he
  · rename_i hle
    rw [if_pos he]
    exact ⟨fun _ h => by omega, fun _ => rfl⟩
  · rename_i hlt
    obtain ⟨hr, hne, hc⟩ := he
    rw [if_neg hne, HttpBaseMsg.withBody, hc, hr, List.length_drop]
    cases hcl : contentLen m.headers with
    | error e => simpa using by omega
    | ok len =>
      have hcast : ((w.length - m.head.length : Nat) : Int) = w.length - m.head.length := by omega
      rw [hcast]
      simp only [Except.ok.injEq, exists_eq_left']
      split
      · rename_i h
        exact ⟨fun _ _ => h, fun _ => rfl⟩
      · rename_i h
        exact ⟨fun hs => by simp at hs, fun hs => absurd (hs (by omega)) h⟩

def post : Message where
  first := "POST".toList.map Char.toUInt8
  second := "/login".toList.map Char.toUInt8
  third := "HTTP/1.1".toList.map Char.toUInt8
  headers := ["Host: fk".toList.map Char.toUInt8, "Content-Length: 2".toList.map Char.toUInt8]
  body := [104, 105]
  first_word := by decide
  second_word := by decide
  third_line := by decide
  header_line := by decide
  length := by decide
  announced := by decide

/-- The first chunk ends between CR and LF. -/
theorem post_chunkFree : HttpMsgType.svr.ChunkFree [post.bytes.take 21, post.bytes.drop 21] :=
  (message_chunkFree_iff .svr post (List.prefix_refl _) (by decide) (by decide)).mpr fun _ => ⟨2, by decide⟩

/-- A response whose length needs ten digits, and more than an `int`. -/
def download : Message where
  first := "HTTP/1.1".toList.map Char.toUInt8
  second := "200".toList.map Char.toUInt8
  third := "OK".toList.map Char.toUInt8
  headers := ["Content-Length: 4294967297".toList.map Char.toUInt8]
  body := List.replicate 4294967297 120
  first_word := by decide
  second_word := by decide
  third_line := by decide
  header_line := by decide
  length := by
    rw [List.length_replicate]
    decide
  announced := fun _ => ⟨_, List.mem_singleton_self _, by decide⟩

theorem download_not_chunkFree :
    download.head ++ [120, 120] <+: download.bytes ∧ ¬ HttpMsgType.cli.ChunkFree [download.head ++ [120, 120]] := by
  refine ⟨?_, ?_⟩
  · refine (List.prefix_append_right_inj _).mpr ⟨List.replicate 4294967295 120, ?_⟩
    exact (List.replicate_add 2 4294967295 120).symm
  · rw [HttpMsgType.chunkFree_iff _ (by simp)]
    decide

end GlobalServer.Http

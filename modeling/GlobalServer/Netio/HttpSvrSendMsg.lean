import GlobalServer.Base.Buffer
import GlobalServer.Lib.Results
import GlobalServer.Netio.HttpMessage

/-!
# Building a response

`HttpSvrSendMsg` writes what its setters are given into a buffer, and `_flag`
has a bit for each of them that has been called. `Write` of one argument writes
the bytes of that argument: of a literal cast to `void*` these are its address.
-/

namespace GlobalServer.Http

open Bytes (Fault u32 leBytes)
open Decimal

/-- An address in user memory. -/
structure Address where
  val : Nat
  user : val < 2 ^ 56

def Address.bytes (a : Address) : List UInt8 := leBytes 8 a.val

/-- Where the literals of `SetSever` and `SetDate` are. -/
structure Literals where
  server : Address
  serverEnd : Address
  date : Address
  dateEnd : Address

inductive SendFlag
  | E_VER
  | E_STATUS_CODE
  | E_STATUS_PHRASE
  | E_LOCATION
  | E_CONT_CODING
  | E_CONT_TYPE
  | E_CONT_LANGUAGE
  | E_DATE
  | E_SERVER
  | E_BODY
  deriving DecidableEq, Repr

def text (s : String) : List UInt8 := s.toList.map Char.toUInt8

/-- What `Write(s, strlen(s))` writes. -/
def str (s : List UInt8) : List UInt8 := s.take (u32 s.length)

def CRLF : List UInt8 := [CR, LF]

structure HttpSvrSendMsg where
  pbuffer : Buffer
  /-- the bits that are set, the last one first -/
  flag : List SendFlag

namespace HttpSvrSendMsg

def init : HttpSvrSendMsg := ⟨.init, []⟩

/-- `ToString` -/
def toString (m : HttpSvrSendMsg) : List UInt8 := m.pbuffer.rest

/-- What the setters but `SetBody` do: once only, and after the calls they need, they write. -/
def set (m : HttpSvrSendMsg) (flag : SendFlag) (needs : List SendFlag) (pieces : List (List UInt8)) :
    Except Fault (HttpSvrSendMsg × Bool) :=
  if flag ∉ m.flag ∧ ∀ f ∈ needs, f ∈ m.flag then
    (pieces.foldlM Buffer.write m.pbuffer).map fun b => (⟨b, flag :: m.flag⟩, true)
  else .ok (m, false)

def startLine : List SendFlag := [.E_VER, .E_STATUS_CODE, .E_STATUS_PHRASE]

variable (m : HttpSvrSendMsg)

def setHttpVersion (ver : List UInt8) := m.set .E_VER [] [str ver, [SP]]

def setStatusCode (status : List UInt8) := m.set .E_STATUS_CODE [.E_VER] [str status, [SP]]

def setStatusPhrase (phrase : List UInt8) := m.set .E_STATUS_PHRASE [.E_VER, .E_STATUS_CODE] [str phrase, CRLF]

def setLocation (location : List UInt8) := m.set .E_LOCATION startLine [text "Location: ", str location, CRLF]

def setContentEncode (encode : List UInt8) :=
  m.set .E_CONT_CODING startLine [text "Content-Encoding: ", str encode, CRLF]

def setContentType (type : List UInt8) := m.set .E_CONT_TYPE startLine [text "Content-Type: ", str type, CRLF]

def setContentLanguage (language : List UInt8) :=
  m.set .E_CONT_LANGUAGE startLine [text "Content-Language: ", str language, CRLF]

def setSever (lit : Literals) (svr : List UInt8) :=
  m.set .E_SERVER startLine [lit.server.bytes, str svr, lit.serverEnd.bytes]

def setDate (lit : Literals) (date : List UInt8) :=
  m.set .E_DATE startLine [lit.date.bytes, str date, lit.dateEnd.bytes]

/-- A setter that `SetBody` calls if it has not been called. -/
def orElse (flag : SendFlag) (call : HttpSvrSendMsg → Except Fault (HttpSvrSendMsg × Bool)) :
    Except Fault HttpSvrSendMsg :=
  if flag ∈ m.flag then .ok m else (call m).map Prod.fst

def setBody (body : List UInt8) (len : Int32) : Except Fault (HttpSvrSendMsg × Bool) :=
  if .E_BODY ∈ m.flag then .ok (m, false)
  else do
    let m ← m.orElse .E_VER (·.setHttpVersion (text "HTTP/1.1"))
    let m ← m.orElse .E_STATUS_CODE (·.setStatusCode (text "200"))
    let m ← m.orElse .E_STATUS_PHRASE (·.setStatusPhrase (text "OK"))
    let m ← m.orElse .E_CONT_TYPE (·.setContentType (text "text/html;charset=utf-8"))
    let n := len.toInt.toNat
    -- a negative length is an enormous one for `Write`
    if len.toInt < 0 ∨ body.length < n then .error .outOfBounds
    else do
      let b ← [text "Content-Length: ", ofNat n, CRLF ++ CRLF, body.take n].foldlM Buffer.write m.pbuffer
      .ok (⟨b, .E_BODY :: m.flag⟩, true)

end HttpSvrSendMsg

/-- A call of a setter. Strings are without their nulls. -/
inductive Setter
  | setHttpVersion (ver : List UInt8)
  | setStatusCode (status : List UInt8)
  | setStatusPhrase (phrase : List UInt8)
  | setLocation (location : List UInt8)
  | setContentEncode (encode : List UInt8)
  | setContentType (type : List UInt8)
  | setContentLanguage (language : List UInt8)
  | setBody (body : List UInt8) (len : Int32)
  | setSever (svr : List UInt8)
  | setDate (date : List UInt8)

namespace HttpSvrSendMsg

def call (lit : Literals) (m : HttpSvrSendMsg) : Setter → Except Fault (HttpSvrSendMsg × Bool)
  | .setHttpVersion ver => m.setHttpVersion ver
  | .setStatusCode status => m.setStatusCode status
  | .setStatusPhrase phrase => m.setStatusPhrase phrase
  | .setLocation location => m.setLocation location
  | .setContentEncode encode => m.setContentEncode encode
  | .setContentType type => m.setContentType type
  | .setContentLanguage language => m.setContentLanguage language
  | .setBody body len => m.setBody body len
  | .setSever svr => m.setSever lit svr
  | .setDate date => m.setDate lit date

/-- The calls in order, when all of them return true. -/
def callAll (lit : Literals) : HttpSvrSendMsg → List Setter → Option HttpSvrSendMsg
  | m, [] => some m
  | m, c :: cs => match m.call lit c with
    | .ok (m', true) => callAll lit m' cs
    | _ => none

end HttpSvrSendMsg

/-! ## What the calls write -/

namespace Setter

def version? : Setter → Option (List UInt8)
  | .setHttpVersion ver => some ver
  | _ => none

def statusCode? : Setter → Option (List UInt8)
  | .setStatusCode status => some status
  | _ => none

def statusPhrase? : Setter → Option (List UInt8)
  | .setStatusPhrase phrase => some phrase
  | _ => none

/-- The name and the value of a header. -/
def header? : Setter → Option (List UInt8 × List UInt8)
  | .setLocation location => some (text "Location: ", location)
  | .setContentEncode encode => some (text "Content-Encoding: ", encode)
  | .setContentType type => some (text "Content-Type: ", type)
  | .setContentLanguage language => some (text "Content-Language: ", language)
  | .setSever svr => some (text "Server: ", svr)
  | .setDate date => some (text "Date: ", date)
  | _ => none

/-- The header line. -/
def line? (c : Setter) : Option (List UInt8) := c.header?.map fun h => h.1 ++ h.2

def flag : Setter → SendFlag
  | .setHttpVersion _ => .E_VER
  | .setStatusCode _ => .E_STATUS_CODE
  | .setStatusPhrase _ => .E_STATUS_PHRASE
  | .setLocation _ => .E_LOCATION
  | .setContentEncode _ => .E_CONT_CODING
  | .setContentType _ => .E_CONT_TYPE
  | .setContentLanguage _ => .E_CONT_LANGUAGE
  | .setBody .. => .E_BODY
  | .setSever _ => .E_SERVER
  | .setDate _ => .E_DATE

def needs : Setter → List SendFlag
  | .setHttpVersion _ => []
  | .setStatusCode _ => [.E_VER]
  | .setStatusPhrase _ => [.E_VER, .E_STATUS_CODE]
  | _ => HttpSvrSendMsg.startLine

def pieces (lit : Literals) : Setter → List (List UInt8)
  | .setHttpVersion ver => [str ver, [SP]]
  | .setStatusCode status => [str status, [SP]]
  | .setStatusPhrase phrase => [str phrase, CRLF]
  | .setLocation location => [text "Location: ", str location, CRLF]
  | .setContentEncode encode => [text "Content-Encoding: ", str encode, CRLF]
  | .setContentType type => [text "Content-Type: ", str type, CRLF]
  | .setContentLanguage language => [text "Content-Language: ", str language, CRLF]
  | .setBody .. => []
  | .setSever svr => [lit.server.bytes, str svr, lit.serverEnd.bytes]
  | .setDate date => [lit.date.bytes, str date, lit.dateEnd.bytes]

def written (lit : Literals) (c : Setter) : List UInt8 := (c.pieces lit).flatten

end Setter

theorem HttpSvrSendMsg.call_eq (lit : Literals) (m : HttpSvrSendMsg) {c : Setter} (h : c.flag ≠ .E_BODY) :
    m.call lit c = m.set c.flag c.needs (c.pieces lit) := by
  cases c <;> first | rfl | exact absurd rfl h

/-! ## Sequences of calls -/

/-- The start line first, one part after the other, then headers. -/
inductive Shape : List Setter → Prop
  | none : Shape []
  | version (ver : List UInt8) : Shape [.setHttpVersion ver]
  | statusCode (ver status : List UInt8) : Shape [.setHttpVersion ver, .setStatusCode status]
  | statusPhrase (ver status phrase : List UInt8) {headers : List Setter} (h : ∀ c ∈ headers, c.header?.isSome) :
      Shape (.setHttpVersion ver :: .setStatusCode status :: .setStatusPhrase phrase :: headers)

theorem Shape.step {calls : List Setter} (h : Shape calls) {c : Setter} (hb : c.flag ≠ .E_BODY)
    (hc : c.flag ∉ calls.map Setter.flag) (hn : ∀ f ∈ c.needs, f ∈ calls.map Setter.flag) : Shape (calls ++ [c]) := by
  cases h with
  | none =>
    have hnil : c.needs = [] := List.eq_nil_iff_forall_not_mem.mpr fun f hf => List.not_mem_nil (hn f hf)
    cases c with
    | setHttpVersion ver => exact .version ver
    | setBody body len => exact absurd rfl hb
    | _ => cases hnil
  | version ver =>
    cases c with
    | setStatusCode status => exact .statusCode ver status
    | _ => simp [Setter.needs, HttpSvrSendMsg.startLine, Setter.flag] at hn hc hb
  | statusCode ver status =>
    cases c with
    | setStatusPhrase phrase => exact .statusPhrase ver status phrase (by simp)
    | _ => simp [Setter.needs, HttpSvrSendMsg.startLine, Setter.flag] at hn hc hb
  | statusPhrase ver status phrase h =>
    have hsome : c.header?.isSome := by
      cases c <;> simp [Setter.header?, Setter.flag] at hc hb ⊢
    refine .statusPhrase ver status phrase fun d hd => ?_
    rcases List.mem_append.mp hd with hd | hd
    · exact h d hd
    · rwa [List.mem_singleton.mp hd]

/-- What a message is after calls before `SetBody` that have all returned true. -/
structure Built (lit : Literals) (m : HttpSvrSendMsg) (calls : List Setter) : Prop where
  sane : m.pbuffer.Sane
  flag : m.flag = (calls.map Setter.flag).reverse
  toString : m.toString = calls.flatMap (Setter.written lit)
  shape : Shape calls

theorem built_init (lit : Literals) : Built lit .init [] := ⟨Buffer.sane_init, rfl, rfl, .none⟩

theorem HttpSvrSendMsg.set_eq (m : HttpSvrSendMsg) {flag : SendFlag} {needs : List SendFlag}
    (pieces : List (List UInt8)) (hf : flag ∉ m.flag) (hn : ∀ f ∈ needs, f ∈ m.flag) :
    m.set flag needs pieces = (pieces.foldlM Buffer.write m.pbuffer).map fun b => (⟨b, flag :: m.flag⟩, true) :=
  if_pos ⟨hf, hn⟩

theorem HttpSvrSendMsg.set_true {m m' : HttpSvrSendMsg} {flag : SendFlag} {needs : List SendFlag}
    {pieces : List (List UInt8)} (h : m.set flag needs pieces = .ok (m', true)) :
    flag ∉ m.flag ∧ (∀ f ∈ needs, f ∈ m.flag) ∧ pieces.foldlM Buffer.write m.pbuffer = .ok m'.pbuffer ∧
      m'.flag = flag :: m.flag := by
  unfold set at h
  split at h
  · rename_i hf
    cases hw : pieces.foldlM Buffer.write m.pbuffer with
    | error e =>
      rw [hw] at h
      cases h
    | ok b =>
      rw [hw] at h
      cases h
      exact ⟨hf.1, hf.2, rfl, rfl⟩
  · cases h

theorem Built.set {lit : Literals} {m m' : HttpSvrSendMsg} {calls : List Setter} (h : Built lit m calls) {c : Setter}
    (hb : c.flag ≠ .E_BODY) (hc : m.set c.flag c.needs (c.pieces lit) = .ok (m', true)) :
    Built lit m' (calls ++ [c]) := by
  obtain ⟨hnot, hneeds, hw, hflag⟩ := HttpSvrSendMsg.set_true hc
  obtain ⟨hs, hr⟩ := h.sane.foldlM_write hw
  rw [h.flag] at hnot hneeds hflag
  simp only [List.mem_reverse] at hnot hneeds
  refine ⟨hs, ?_, ?_, h.shape.step hb hnot hneeds⟩
  · rw [hflag, List.map_append, List.reverse_append]
    rfl
  · rw [HttpSvrSendMsg.toString, hr, show m.pbuffer.rest = _ from h.toString, List.flatMap_append, List.flatMap_singleton]
    rfl

theorem Built.callAll {lit : Literals} {m m' : HttpSvrSendMsg} {calls cs : List Setter} (h : Built lit m calls)
    (hb : ∀ c ∈ cs, c.flag ≠ .E_BODY) (hc : m.callAll lit cs = some m') : Built lit m' (calls ++ cs) := by
  induction cs generalizing m calls with
  | nil =>
    cases hc
    rwa [List.append_nil]
  | cons c cs ih =>
    have hbc := hb c List.mem_cons_self
    unfold HttpSvrSendMsg.callAll at hc
    split at hc
    · rename_i m₁ hm₁
      rw [HttpSvrSendMsg.call_eq lit m hbc] at hm₁
      have := ih (h.set hbc hm₁) (fun d hd => hb d (List.mem_cons_of_mem _ hd)) hc
      rwa [List.append_assoc] at this
    · cases hc

/-! ## `SetBody` -/

/-- The calls that `SetBody` makes. -/
def defaults : List Setter :=
  [.setHttpVersion (text "HTTP/1.1"), .setStatusCode (text "200"), .setStatusPhrase (text "OK"),
    .setContentType (text "text/html;charset=utf-8")]

def orAppend (calls : List Setter) (c : Setter) : List Setter :=
  if c.flag ∈ calls.map Setter.flag then calls else calls ++ [c]

/-- The calls, with those that `SetBody` makes for want of them. -/
def complete (calls : List Setter) : List Setter := defaults.foldl orAppend calls

theorem flag_mem_orAppend (calls : List Setter) (c : Setter) :
    c.flag ∈ (orAppend calls c).map Setter.flag ∧
      ∀ f ∈ calls.map Setter.flag, f ∈ (orAppend calls c).map Setter.flag := by
  unfold orAppend
  split
  · exact ⟨by assumption, fun f hf => hf⟩
  · exact ⟨by simp, fun f hf => by simp_all⟩

theorem Built.orElse {lit : Literals} {m m' : HttpSvrSendMsg} {calls : List Setter} (h : Built lit m calls) {c : Setter}
    (hb : c.flag ≠ .E_BODY) (hn : ∀ f ∈ c.needs, f ∈ calls.map Setter.flag)
    (hc : m.orElse c.flag (fun m => m.set c.flag c.needs (c.pieces lit)) = .ok m') :
    Built lit m' (orAppend calls c) := by
  have hmem : ∀ f, f ∈ m.flag ↔ f ∈ calls.map Setter.flag := fun f => by rw [h.flag, List.mem_reverse]
  unfold HttpSvrSendMsg.orElse at hc
  split at hc
  · rename_i hf
    cases hc
    rwa [orAppend, if_pos ((hmem _).mp hf)]
  · rename_i hf
    rw [orAppend, if_neg (mt (hmem _).mpr hf)]
    refine h.set hb ?_
    have hset := m.set_eq (c.pieces lit) hf fun f hf => (hmem f).mpr (hn f hf)
    have hc : (m.set c.flag c.needs (c.pieces lit)).map Prod.fst = .ok m' := hc
    rw [hset] at hc ⊢
    cases hw : (c.pieces lit).foldlM Buffer.write m.pbuffer with
    | error e =>
      rw [hw] at hc
      cases hc
    | ok b =>
      rw [hw] at hc
      cases hc
      rfl

theorem Built.setBody {lit : Literals} {m m' : HttpSvrSendMsg} {calls : List Setter} (h : Built lit m calls)
    {body : List UInt8} {len : Int32} (hc : m.setBody body len = .ok (m', true)) :
    0 ≤ len.toInt ∧ len.toInt.toNat ≤ body.length ∧ m'.pbuffer.Sane ∧
      m'.toString = (complete calls).flatMap (Setter.written lit) ++ (text "Content-Length: " ++
        (ofNat len.toInt.toNat ++ (CRLF ++ CRLF ++ body.take len.toInt.toNat))) := by
  unfold HttpSvrSendMsg.setBody at hc
  split at hc
  · cases hc
  · obtain ⟨m₁, h₁, hc⟩ := Except.bind_eq_ok.mp hc
    obtain ⟨m₂, h₂, hc⟩ := Except.bind_eq_ok.mp hc
    obtain ⟨m₃, h₃, hc⟩ := Except.bind_eq_ok.mp hc
    obtain ⟨m₄, h₄, hc⟩ := Except.bind_eq_ok.mp hc
    have hb₁ := h.orElse (c := .setHttpVersion (text "HTTP/1.1")) (by decide) (List.forall_mem_nil _) h₁
    obtain ⟨hver₁, -⟩ := flag_mem_orAppend calls (.setHttpVersion (text "HTTP/1.1"))
    have hb₂ := hb₁.orElse (c := .setStatusCode (text "200")) (by decide) (List.forall_mem_singleton.mpr hver₁) h₂
    obtain ⟨hstatus₂, hkeep₂⟩ := flag_mem_orAppend (orAppend calls (.setHttpVersion (text "HTTP/1.1")))
      (.setStatusCode (text "200"))
    have hver₂ := hkeep₂ _ hver₁
    have hb₃ := hb₂.orElse (c := .setStatusPhrase (text "OK")) (by decide)
      (List.forall_mem_cons.mpr ⟨hver₂, List.forall_mem_singleton.mpr hstatus₂⟩) h₃
    obtain ⟨hphrase₃, hkeep₃⟩ := flag_mem_orAppend (orAppend (orAppend calls (.setHttpVersion (text "HTTP/1.1")))
      (.setStatusCode (text "200"))) (.setStatusPhrase (text "OK"))
    have hb₄ := hb₃.orElse (c := .setContentType (text "text/html;charset=utf-8")) (by decide)
      (List.forall_mem_cons.mpr ⟨hkeep₃ _ hver₂, List.forall_mem_cons.mpr
        ⟨hkeep₃ _ hstatus₂, List.forall_mem_singleton.mpr hphrase₃⟩⟩) h₄
    dsimp only at hc
    split at hc
    · cases hc
    · rename_i hlen
      obtain ⟨b, hw, hc⟩ := Except.bind_eq_ok.mp hc
      cases hc
      obtain ⟨hs, hr⟩ := hb₄.sane.foldlM_write hw
      refine ⟨by omega, by omega, hs, ?_⟩
      rw [HttpSvrSendMsg.toString, hr, show m₄.pbuffer.rest = _ from hb₄.toString]
      simp only [List.flatten_cons, List.flatten_nil, List.append_nil, List.append_assoc]
      rfl

theorem Shape.complete_eq {calls : List Setter} (h : Shape calls) : complete calls =
    .setHttpVersion ((calls.findSome? Setter.version?).getD (text "HTTP/1.1")) ::
    .setStatusCode ((calls.findSome? Setter.statusCode?).getD (text "200")) ::
    .setStatusPhrase ((calls.findSome? Setter.statusPhrase?).getD (text "OK")) ::
    (calls.filter (·.header?.isSome) ++ if .E_CONT_TYPE ∈ calls.map Setter.flag then []
      else [.setContentType (text "text/html;charset=utf-8")]) := by
  cases h with
  | none => rfl
  | version ver => rfl
  | statusCode ver status => rfl
  | @statusPhrase ver status phrase headers h =>
    have hfilter : headers.filter (·.header?.isSome) = headers := List.filter_eq_self.mpr h
    generalize hcalls : Setter.setHttpVersion ver :: .setStatusCode status :: .setStatusPhrase phrase :: headers = calls
    have hver : orAppend calls (.setHttpVersion (text "HTTP/1.1")) = calls := if_pos (by simp [← hcalls, Setter.flag])
    have hstatus : orAppend calls (.setStatusCode (text "200")) = calls := if_pos (by simp [← hcalls, Setter.flag])
    have hphrase : orAppend calls (.setStatusPhrase (text "OK")) = calls := if_pos (by simp [← hcalls, Setter.flag])
    show orAppend (orAppend (orAppend (orAppend calls _) _) _) _ = _
    rw [hver, hstatus, hphrase, orAppend, show calls.filter (·.header?.isSome) = headers by rw [← hcalls]; exact hfilter]
    change (if .E_CONT_TYPE ∈ calls.map Setter.flag then _ else _) = _
    split <;> rw [← hcalls]
    · rw [List.append_nil]
      rfl
    · rfl

/-! ## Calls after `SetBody` -/

/-- What every call keeps. -/
structure Extends (m m' : HttpSvrSendMsg) : Prop where
  sane : m'.pbuffer.Sane
  flag : ∀ f ∈ m.flag, f ∈ m'.flag
  toString : m.toString <+: m'.toString

namespace Extends

variable {m m₁ m₂ m' : HttpSvrSendMsg}

theorem refl (h : m.pbuffer.Sane) : Extends m m := ⟨h, fun _ hf => hf, List.prefix_rfl⟩

theorem trans (h₁ : Extends m m₁) (h₂ : Extends m₁ m₂) : Extends m m₂ :=
  ⟨h₂.sane, fun f hf => h₂.flag f (h₁.flag f hf), h₁.toString.trans h₂.toString⟩

theorem write (h : m.pbuffer.Sane) {pieces : List (List UInt8)} {b : Buffer}
    (hw : pieces.foldlM Buffer.write m.pbuffer = .ok b) (f : SendFlag) : Extends m ⟨b, f :: m.flag⟩ := by
  obtain ⟨hs, hr⟩ := h.foldlM_write hw
  refine ⟨hs, fun _ hf => List.mem_cons_of_mem _ hf, ?_⟩
  rw [HttpSvrSendMsg.toString, HttpSvrSendMsg.toString, hr]
  exact List.prefix_append _ _

theorem set (h : m.pbuffer.Sane) {flag : SendFlag} {needs : List SendFlag} {pieces : List (List UInt8)} {t : Bool}
    (hc : m.set flag needs pieces = .ok (m', t)) : Extends m m' := by
  unfold HttpSvrSendMsg.set at hc
  split at hc
  · cases hw : pieces.foldlM Buffer.write m.pbuffer with
    | error e =>
      rw [hw] at hc
      cases hc
    | ok b =>
      rw [hw] at hc
      cases hc
      exact write h hw flag
  · cases hc
    exact refl h

theorem orElse (h : m.pbuffer.Sane) {flag : SendFlag} {needs : List SendFlag} {pieces : List (List UInt8)}
    (hc : m.orElse flag (fun m => m.set flag needs pieces) = .ok m') : Extends m m' := by
  unfold HttpSvrSendMsg.orElse at hc
  split at hc
  · cases hc
    exact refl h
  · cases hs : m.set flag needs pieces with
    | error e =>
      have hc : (m.set flag needs pieces).map Prod.fst = .ok m' := hc
      rw [hs] at hc
      cases hc
    | ok r =>
      have hc : (m.set flag needs pieces).map Prod.fst = .ok m' := hc
      rw [hs] at hc
      cases hc
      exact set h hs

theorem setBody (h : m.pbuffer.Sane) {body : List UInt8} {len : Int32} {t : Bool}
    (hc : m.setBody body len = .ok (m', t)) : Extends m m' := by
  unfold HttpSvrSendMsg.setBody at hc
  split at hc
  · cases hc
    exact refl h
  · obtain ⟨m₁, h₁, hc⟩ := Except.bind_eq_ok.mp hc
    obtain ⟨m₂, h₂, hc⟩ := Except.bind_eq_ok.mp hc
    obtain ⟨m₃, h₃, hc⟩ := Except.bind_eq_ok.mp hc
    obtain ⟨m₄, h₄, hc⟩ := Except.bind_eq_ok.mp hc
    have e₁ := orElse h h₁
    have e₂ := orElse e₁.sane h₂
    have e₃ := orElse e₂.sane h₃
    have e₄ := orElse e₃.sane h₄
    dsimp only at hc
    split at hc
    · cases hc
    · obtain ⟨b, hw, hc⟩ := Except.bind_eq_ok.mp hc
      cases hc
      exact ((e₁.trans e₂).trans (e₃.trans e₄)).trans (write e₄.sane hw .E_BODY)

theorem call (lit : Literals) (h : m.pbuffer.Sane) {c : Setter} {t : Bool} (hc : m.call lit c = .ok (m', t)) :
    Extends m m' := by
  by_cases hb : c.flag = .E_BODY
  · cases c with
    | setBody body len => exact setBody h hc
    | _ => cases hb
  · exact set h (HttpSvrSendMsg.call_eq lit m hb ▸ hc)

theorem callAll (lit : Literals) (h : m.pbuffer.Sane) {cs : List Setter} (hc : m.callAll lit cs = some m') :
    Extends m m' := by
  induction cs generalizing m with
  | nil =>
    cases hc
    exact refl h
  | cons c cs ih =>
    unfold HttpSvrSendMsg.callAll at hc
    split at hc
    · rename_i m₁ hm₁
      have h₁ := call lit h hm₁
      exact h₁.trans (ih h₁.sane hc)
    · cases hc

end Extends

theorem HttpSvrSendMsg.setBody_true {m m' : HttpSvrSendMsg} {body : List UInt8} {len : Int32}
    (hc : m.setBody body len = .ok (m', true)) : .E_BODY ∉ m.flag ∧ .E_BODY ∈ m'.flag := by
  unfold HttpSvrSendMsg.setBody at hc
  split at hc
  · cases hc
  · rename_i hb
    obtain ⟨m₁, -, hc⟩ := Except.bind_eq_ok.mp hc
    obtain ⟨m₂, -, hc⟩ := Except.bind_eq_ok.mp hc
    obtain ⟨m₃, -, hc⟩ := Except.bind_eq_ok.mp hc
    obtain ⟨m₄, -, hc⟩ := Except.bind_eq_ok.mp hc
    dsimp only at hc
    split at hc
    · cases hc
    · obtain ⟨b, -, hc⟩ := Except.bind_eq_ok.mp hc
      cases hc
      exact ⟨hb, List.mem_cons_self⟩

theorem HttpSvrSendMsg.callAll_append (lit : Literals) (m : HttpSvrSendMsg) (cs ds : List Setter) :
    m.callAll lit (cs ++ ds) = (m.callAll lit cs).bind fun m => m.callAll lit ds := by
  induction cs generalizing m with
  | nil => rfl
  | cons c cs ih =>
    rw [List.cons_append, callAll, callAll]
    split
    · exact ih _
    · rfl

theorem HttpSvrSendMsg.callAll_singleton {lit : Literals} {m m' : HttpSvrSendMsg} {c : Setter} :
    m.callAll lit [c] = some m' ↔ m.call lit c = .ok (m', true) := by
  unfold callAll
  split
  · rename_i m₁ h₁
    simp [h₁, callAll]
  · rename_i h
    exact ⟨fun hn => absurd hn (by simp), fun hm => absurd hm (h m')⟩

theorem body_mem_flag {lit : Literals} {m m' : HttpSvrSendMsg} {cs : List Setter} (h : m.pbuffer.Sane)
    (hc : m.callAll lit cs = some m') {c : Setter} (hmem : c ∈ cs) (hb : c.flag = .E_BODY) : .E_BODY ∈ m'.flag := by
  obtain ⟨before, later, rfl⟩ := List.append_of_mem hmem
  rw [HttpSvrSendMsg.callAll_append] at hc
  obtain ⟨m₁, h₁, hc⟩ := Option.bind_eq_some_iff.mp hc
  rw [← List.singleton_append, HttpSvrSendMsg.callAll_append] at hc
  obtain ⟨m₂, h₂, hc⟩ := Option.bind_eq_some_iff.mp hc
  have hs₁ := (Extends.callAll lit h h₁).sane
  have hs₂ := (Extends.callAll lit hs₁ h₂).sane
  refine (Extends.callAll lit hs₂ hc).flag _ ?_
  cases c with
  | setBody body len => exact (HttpSvrSendMsg.setBody_true (HttpSvrSendMsg.callAll_singleton.mp h₂)).2
  | _ => cases hb

theorem callAll_setBody {lit : Literals} {m : HttpSvrSendMsg} {calls : List Setter} {body : List UInt8} {len : Int32}
    (h : HttpSvrSendMsg.init.callAll lit (calls ++ [.setBody body len]) = some m) :
    Shape calls ∧ (∀ c ∈ calls, c.flag ≠ .E_BODY) ∧ 0 ≤ len.toInt ∧ len.toInt.toNat ≤ body.length ∧ m.pbuffer.Sane ∧
      m.toString = (complete calls).flatMap (Setter.written lit) ++ (text "Content-Length: " ++
        (ofNat len.toInt.toNat ++ (CRLF ++ CRLF ++ body.take len.toInt.toNat))) := by
  rw [HttpSvrSendMsg.callAll_append] at h
  obtain ⟨m₁, h₁, h⟩ := Option.bind_eq_some_iff.mp h
  have hset : m₁.setBody body len = .ok (m, true) := HttpSvrSendMsg.callAll_singleton.mp h
  have hb : ∀ c ∈ calls, c.flag ≠ .E_BODY := fun c hc hb =>
    (HttpSvrSendMsg.setBody_true hset).1 (body_mem_flag Buffer.sane_init h₁ hc hb)
  have hbuilt := (built_init lit).callAll hb h₁
  exact ⟨hbuilt.shape, hb, hbuilt.setBody hset⟩

theorem mem_orAppend {calls : List Setter} {c d : Setter} (h : c ∈ orAppend calls d) : c ∈ calls ∨ c = d := by
  unfold orAppend at h
  split at h
  · exact .inl h
  · exact (List.mem_append.mp h).imp_right List.mem_singleton.mp

theorem subset_orAppend (calls : List Setter) (d : Setter) : ∀ c ∈ calls, c ∈ orAppend calls d := by
  intro c h
  unfold orAppend
  split
  · exact h
  · exact List.mem_append_left _ h

theorem mem_complete {calls : List Setter} {c : Setter} (h : c ∈ complete calls) : c ∈ calls ∨ c ∈ defaults := by
  unfold complete at h
  generalize defaults = ds at h
  induction ds generalizing calls with
  | nil => exact .inl h
  | cons d ds ih =>
    rcases ih h with h | h
    · rcases mem_orAppend h with h | rfl
      · exact .inl h
      · exact .inr List.mem_cons_self
    · exact .inr (List.mem_cons_of_mem d h)

theorem subset_complete (calls : List Setter) : ∀ c ∈ calls, c ∈ complete calls := by
  intro c h
  unfold complete
  generalize defaults = ds
  induction ds generalizing calls with
  | nil => exact h
  | cons d ds ih => exact ih _ (subset_orAppend calls d c h)

end GlobalServer.Http

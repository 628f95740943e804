import GlobalServer.Netio.HttpLength
import GlobalServer.Netio.HttpSvrSendMsg

/-!
# Responses that come back

What a server builds with `HttpSvrSendMsg` a client parses with
`HttpCliRecvMsg`. Where the chunks end makes no difference to the message that
the client has in the end.
-/

namespace GlobalServer.Http

open Bytes (Fault u32 leBytes)
open HttpBaseMsg Decimal

/-! ## Parsing in chunks -/

/-- Parse is called on the chunks in order, however much it uses of them. -/
def HttpMsgType.parseAll (k : HttpMsgType) : HttpBaseMsg → List (List UInt8) → Except Fault HttpBaseMsg
  | s, [] => .ok s
  | s, c :: cs => k.parse s c >>= fun r => k.parseAll r.1 cs

theorem Parsed.map_fst_after (n : Nat) (p : Parsed) : (p.after n).map Prod.fst = p.map Prod.fst := by
  cases p <;> rfl

theorem take_take_append (n : Nat) (l m : List UInt8) : (l.take n ++ m).take n = (l ++ m).take n := by
  rcases Nat.le_total n l.length with h | h
  · rw [List.take_append_of_le_length (by rw [List.length_take]; omega), List.take_take, min_self,
      List.take_append_of_le_length h]
  · rw [List.take_of_length_le h]

namespace HttpMsgType

variable (k : HttpMsgType)

theorem parseAll_over {s : HttpBaseMsg} (hs : s.flag = .E_PARSE_OVER) (cs : List (List UInt8)) :
    k.parseAll s cs = .ok s := by
  induction cs with
  | nil => rfl
  | cons c cs ih => rw [parseAll, k.parse_of_over hs, Except.ok_bind, ih]

theorem parseAll_inBody (s : HttpBaseMsg) {len : Nat} (hlen : len < 2 ^ 31) {r : List UInt8} (hr : r.length ≤ len)
    (cs : List (List UInt8)) : k.parseAll (s.inBody len r) cs = .ok (s.inBody len ((r ++ cs.flatten).take len)) := by
  induction cs generalizing r with
  | nil => rw [parseAll, List.flatten_nil, List.append_nil, List.take_of_length_le hr]
  | cons c cs ih =>
    by_cases hover : r.length = len
    · rw [k.parseAll_over (if_pos (by exact_mod_cast hover)), ← hover, List.take_left]
    · have hflag : (s.inBody len r).flag = .E_PARSE_BODY := if_neg (by exact_mod_cast hover)
      by_cases hc : c = []
      · rw [parseAll, hc, k.parse_nil (.inr hflag), Except.ok_bind, ih hr, List.flatten_cons, List.nil_append]
      · have hn : (r.length + (len - r.length : Nat) : Int) = len := by omega
        rw [parseAll, k.parse_of_body hflag, parseBody_inBody s (by omega) hn (by omega) hc, Except.ok_bind,
          ih (by rw [List.length_append, List.length_take]; omega)]
        have ht : r ++ c.take (len - r.length) = (r ++ c).take len := by rw [List.take_append, List.take_of_length_le hr]
        rw [ht, take_take_append, List.append_assoc, List.flatten_cons]

theorem parseAll_eq {s : HttpBaseMsg} (h : k.InHead s ∨ s.flag = .E_PARSE_BODY) (hs : s.bodysize = -1)
    (cs : List (List UInt8)) : k.parseAll s cs = (k.parse s cs.flatten).map Prod.fst := by
  induction cs generalizing s with
  | nil =>
    rw [parseAll, List.flatten_nil, k.parse_nil h]
    rfl
  | cons c cs ih =>
    obtain ⟨h₁, h₂, -, -, h₅⟩ := k.eatAll_keeps h c
    rw [parseAll, k.parse_eatAll s c, List.flatten_cons, k.parse_eatAll s (c ++ _), k.eatAll_append, Parsed.map_fst_after]
    generalize k.eatAll s c = e at h₁ h₂ h₅
    obtain ⟨t, r⟩ := e
    dsimp only at h₁ h₂ h₅ ⊢
    by_cases hr : r = []
    · rw [hr, if_pos rfl, k.parse_nil h₁, Parsed.after_ok, Except.ok_bind, ih h₁ (h₂.trans hs), k.parse_eatAll t,
        Parsed.map_fst_after]
    · have hf := h₅ hr
      have hra : r ++ cs.flatten ≠ [] := fun h => hr (List.append_eq_nil_iff.mp h).1
      rw [if_neg hr]
      dsimp only
      rw [k.parse_of_body hf, k.parse_of_body hf, parseBody_behind (h₂.trans hs) hf hr,
        parseBody_behind (h₂.trans hs) hf hra]
      cases hcl : t.checkContentLen with
      | error e => rfl
      | ok len =>
        have hlen := (checkLines_range hcl).2
        rw [Except.ok_bind, Except.ok_bind]
        rcases lt_trichotomy len 0 with hneg | rfl | hpos
        · rw [if_neg hneg.ne, if_neg hneg.ne, if_pos hneg, if_pos hneg]
          rfl
        · rw [if_pos rfl, if_pos rfl, Parsed.after_ok, Except.ok_bind, k.parseAll_over rfl]
          rfl
        · obtain ⟨n, rfl⟩ := Int.eq_ofNat_of_zero_le hpos.le
          rw [if_neg hpos.ne', if_neg hpos.ne', if_neg (by omega), if_neg (by omega), Int.toNat_natCast, Parsed.after_ok,
            Except.ok_bind, k.parseAll_inBody t (by omega) (by rw [List.length_take]; omega), take_take_append]
          rfl

end HttpMsgType

/-! ## What the client has of a response -/

def HttpBaseMsg.part (s : HttpBaseMsg) (p : StrPos) : List UInt8 :=
  if p.fin = 0 then [] else (s.buffer.drop p.beg).take (p.fin - p.beg)

namespace HttpCliRecvMsg

variable (s : HttpBaseMsg)

def getVersion : List UInt8 := s.part s.first

def getStatusCode : List UInt8 := s.part s.second

def getStatusPhrase : List UInt8 := s.part s.third

/-- What `NextHeader` gives, before the empty line. -/
def headers : List (List UInt8) := (s.headerVec.map (headerLine s.buffer)).takeWhile (· ≠ [])

end HttpCliRecvMsg

structure Response where
  version : List UInt8
  statusCode : List UInt8
  statusPhrase : List UInt8
  headers : List (List UInt8)
  body : List UInt8
  deriving DecidableEq

def HttpBaseMsg.response (s : HttpBaseMsg) : Response where
  version := HttpCliRecvMsg.getVersion s
  statusCode := HttpCliRecvMsg.getStatusCode s
  statusPhrase := HttpCliRecvMsg.getStatusPhrase s
  headers := HttpCliRecvMsg.headers s
  body := s.getBody

/-- From the bytes, in whatever chunks, the client has the response, and knows that it is over. -/
def Parsed.Gives (bytes : List UInt8) (r : Response) : Prop :=
  ∀ cs, cs.flatten = bytes → ∃ s, HttpMsgType.cli.parseAll HttpMsgType.cli.clear cs = .ok s ∧
    s.flag = .E_PARSE_OVER ∧ s.response = r

/-- The response, as it should come. -/
def sent (calls : List Setter) (body : List UInt8) : Response where
  version := (calls.findSome? Setter.version?).getD (text "HTTP/1.1")
  statusCode := (calls.findSome? Setter.statusCode?).getD (text "200")
  statusPhrase := (calls.findSome? Setter.statusPhrase?).getD (text "OK")
  headers := calls.filterMap Setter.line? ++
    (if .E_CONT_TYPE ∈ calls.map Setter.flag then [] else [text "Content-Type: text/html;charset=utf-8"]) ++
    [text "Content-Length: " ++ ofNat body.length]
  body := body

theorem HttpMsgType.parse_behind (k : HttpMsgType) (h : Head) {r : List UInt8} (hr : r ≠ []) :
    ∃ t, h.Read t ∧ (k.parse k.clear (h.bytes ++ r)).map Prod.fst = contentLen h.headers >>= fun len =>
      if len = 0 then .ok { t with bodysize := 0, flag := .E_PARSE_OVER }
      else if len < 0 then .error .outOfBounds
      else .ok (t.inBody len (r.take len.toNat)) := by
  obtain ⟨t, ht, he⟩ := h.eatAll_bytes k
  refine ⟨t, ht, ?_⟩
  rw [k.parse_eatAll, he, Parsed.map_fst_after, k.parse_of_body ht.flag, parseBody_behind ht.bodysize ht.flag hr,
    ht.checkContentLen]
  cases contentLen h.headers with
  | error e => rfl
  | ok len =>
    rw [Except.ok_bind, Except.ok_bind]
    split
    · rfl
    · split <;> rfl

/-- The message has what a head says, and more behind it. -/
structure Head.Known (h : Head) (s : HttpBaseMsg) : Prop where
  parts : s.parts = h.parts
  buffer : h.bytes <+: s.buffer
  lists : Lists s.buffer s.headerVec (h.headers ++ [[]])

theorem Head.Read.known {h : Head} {t s : HttpBaseMsg} (ht : h.Read t) (hp : s.parts = t.parts)
    (hv : s.headerVec = t.headerVec) {x : List UInt8} (hb : s.buffer = t.buffer ++ x) : h.Known s where
  parts := hp.trans ht.parts
  buffer := by
    rw [hb, ht.buffer]
    exact List.prefix_append _ _
  lists := by
    rw [hb, hv]
    exact ht.lists.append x

namespace Head.Known

variable {h : Head} {s : HttpBaseMsg}

theorem part_eq {p : StrPos} {l : List UInt8} (hlen : p.fin = p.beg + l.length) (hl : l <+: s.buffer.drop p.beg) :
    s.part p = l := by
  unfold HttpBaseMsg.part
  obtain ⟨x, hx⟩ := hl
  rw [hlen, Nat.add_sub_cancel_left, ← hx, List.take_left]
  split
  · exact (List.length_eq_zero_iff.mp (by omega)).symm
  · rfl

theorem startLine (hs : h.Known s) : HttpCliRecvMsg.getVersion s = h.first ∧ HttpCliRecvMsg.getStatusCode s = h.second ∧
    HttpCliRecvMsg.getStatusPhrase s = h.third := by
  obtain ⟨x, hx⟩ := hs.buffer
  have hp := hs.parts
  simp only [HttpBaseMsg.parts, Head.parts, Prod.mk.injEq] at hp
  obtain ⟨h₁, h₂, h₃⟩ := hp
  generalize hy : (h.headers.map withCRLF).flatten ++ withCRLF [] ++ x = y
  have hfirst : s.buffer = h.first ++ SP :: (h.second ++ SP :: (withCRLF h.third ++ y)) := by
    rw [← hx, ← hy]
    simp [Head.bytes, Head.startLine]
  have hsecond : s.buffer = (h.first ++ [SP]) ++ (h.second ++ SP :: (withCRLF h.third ++ y)) := by
    rw [hfirst]
    simp
  have hthird : s.buffer = (h.first ++ [SP] ++ h.second ++ [SP]) ++ (h.third ++ (CR :: LF :: y)) := by
    rw [hfirst]
    simp [withCRLF]
  refine ⟨?_, ?_, ?_⟩
  · rw [HttpCliRecvMsg.getVersion, h₁]
    refine part_eq (Nat.zero_add _).symm ?_
    rw [hfirst, List.drop_zero]
    exact List.prefix_append _ _
  · rw [HttpCliRecvMsg.getStatusCode, h₂]
    refine part_eq rfl ?_
    rw [hsecond, List.drop_left' (by simp)]
    exact List.prefix_append _ _
  · rw [HttpCliRecvMsg.getStatusPhrase, h₃]
    refine part_eq rfl ?_
    rw [hthird, List.drop_left' (by simp only [List.length_append, List.length_singleton])]
    exact List.prefix_append _ _

theorem headers (hs : h.Known s) : HttpCliRecvMsg.headers s = h.headers := by
  have hmap : s.headerVec.map (headerLine s.buffer) = h.headers ++ [[]] := by
    have hl := hs.lists
    generalize h.headers ++ [[]] = lines at hl
    generalize s.headerVec = vec at hl
    induction hl with
    | nil => rfl
    | cons hp _ ih => rw [List.map_cons, headerLine_eq hp.1 hp.2, ih]
  rw [HttpCliRecvMsg.headers, hmap, List.takeWhile_append_of_pos]
  · simp
  · intro l hl
    simpa using (h.header_line l hl).1

end Head.Known

/-! ## The bytes of a response -/

/-- The lines of a response up to its body. -/
def Response.headBytes (r : Response) : List UInt8 :=
  r.version ++ SP :: (r.statusCode ++ SP :: withCRLF r.statusPhrase) ++ ((r.headers.map withCRLF).flatten ++ withCRLF [])

theorem Head.Known.headBytes {h : Head} {s : HttpBaseMsg} (hs : h.Known s) : s.response.headBytes = h.bytes := by
  obtain ⟨h₁, h₂, h₃⟩ := hs.startLine
  rw [Response.headBytes, HttpBaseMsg.response]
  dsimp only
  rw [h₁, h₂, h₃, hs.headers]
  rfl

theorem Head.known_of_parse (k : HttpMsgType) (h : Head) {x : List UInt8} (hx : x ≠ []) {s : HttpBaseMsg}
    (hs : (k.parse k.clear (h.bytes ++ x)).map Prod.fst = .ok s) : h.Known s := by
  obtain ⟨t, ht, hp⟩ := k.parse_behind h hx
  rw [hs] at hp
  obtain ⟨len, -, hp⟩ := Except.bind_eq_ok.mp hp.symm
  split at hp
  · cases hp
    exact ht.known rfl rfl (List.append_nil _).symm
  · split at hp
    · cases hp
    · cases hp
      exact ht.known rfl rfl rfl

theorem Parsed.Gives.bytes {bytes : List UInt8} {r : Response} (hg : Parsed.Gives bytes r) :
    ∃ x, x ≠ [] ∧ bytes = r.headBytes ++ x := by
  obtain ⟨s, hs, hf, rfl⟩ := hg [bytes] (by simp)
  rw [HttpMsgType.parseAll_eq _ (.inl (HttpMsgType.inHead_clear _)) (HttpMsgType.bodysize_clear _),
    List.flatten_singleton] at hs
  obtain ⟨h, body, hw⟩ := exists_head bytes
  by_cases hle : bytes.length ≤ h.bytes.length
  · -- the head has not been left
    have hpre := h.eatAll_prefix .cli hw
    rw [if_pos hle] at hpre
    obtain ⟨hin, -⟩ := HttpMsgType.cli.eatAll_keeps (.inl (HttpMsgType.inHead_clear _)) bytes
    rw [HttpMsgType.parse_eatAll, hpre, Parsed.map_fst_after, HttpMsgType.parse_nil _ hin] at hs
    obtain rfl : _ = s := Except.ok.inj hs
    rw [HttpMsgType.InHead, hf] at hin
    exact absurd hin (by decide)
  · obtain ⟨x, rfl⟩ := List.prefix_of_prefix_length_le (List.prefix_append h.bytes body) hw (by omega)
    have hx : x ≠ [] := fun hx => hle (by rw [hx, List.append_nil])
    exact ⟨x, hx, by rw [(h.known_of_parse .cli hx hs).headBytes]⟩

theorem getBody_whole (s : HttpBaseMsg) {body : List UInt8} (h : body ≠ []) :
    (s.inBody body.length body).getBody = body := by
  have hpos := List.length_pos_iff.mpr h
  have hb : (s.inBody body.length body).body = ⟨s.buffer.length, s.buffer.length + body.length⟩ := by
    simp [inBody]
  rw [getBody, hb, if_neg (by dsimp only; omega)]
  dsimp only
  rw [Nat.add_sub_cancel_left, show (s.inBody body.length body).buffer = s.buffer ++ body from rfl, List.drop_left,
    List.take_length]

theorem Head.gives (h : Head) {body : List UInt8} (hbody : body ≠ []) (hlen : contentLen h.headers = .ok body.length)
    (x : List UInt8) : Parsed.Gives (h.bytes ++ (body ++ x))
      { version := h.first, statusCode := h.second, statusPhrase := h.third, headers := h.headers, body } := by
  intro cs hcs
  rw [HttpMsgType.parseAll_eq _ (.inl (HttpMsgType.inHead_clear _)) (HttpMsgType.bodysize_clear _), hcs]
  have hpos := List.length_pos_iff.mpr hbody
  have hx : body ++ x ≠ [] := fun h => hbody (List.append_eq_nil_iff.mp h).1
  obtain ⟨t, ht, hp⟩ := HttpMsgType.cli.parse_behind h hx
  rw [hlen, Except.ok_bind, if_neg (by omega), if_neg (by omega), Int.toNat_natCast, List.take_left] at hp
  refine ⟨_, hp, if_pos rfl, ?_⟩
  have hknown := h.known_of_parse .cli hx hp
  obtain ⟨h₁, h₂, h₃⟩ := hknown.startLine
  rw [HttpBaseMsg.response, h₁, h₂, h₃, hknown.headers, getBody_whole t hbody]

/-! ## What is written, and what should be -/

namespace Setter

def arg : Setter → List UInt8
  | .setHttpVersion ver => ver
  | .setStatusCode status => status
  | .setStatusPhrase phrase => phrase
  | .setLocation location => location
  | .setContentEncode encode => encode
  | .setContentType type => type
  | .setContentLanguage language => language
  | .setBody body _ => body
  | .setSever svr => svr
  | .setDate date => date

/-- The string is one line, and in the first two parts of the start line one word. A C string has no null in it. -/
def Plain (c : Setter) : Prop :=
  0 ∉ c.arg ∧ CR ∉ c.arg ∧ LF ∉ c.arg ∧ (c.flag = .E_VER ∨ c.flag = .E_STATUS_CODE → SP ∉ c.arg)

instance (c : Setter) : Decidable c.Plain := inferInstanceAs (Decidable (_ ∧ _))

/-- The setter writes its string, and what belongs to it. -/
def Exact (c : Setter) : Prop := c.flag ≠ .E_SERVER ∧ c.flag ≠ .E_DATE ∧ c.arg.length < 2 ^ 32

instance (c : Setter) : Decidable c.Exact := inferInstanceAs (Decidable (_ ∧ _))

/-- What the setter should write. -/
def wanted : Setter → List UInt8
  | .setHttpVersion ver => ver ++ [SP]
  | .setStatusCode status => status ++ [SP]
  | .setStatusPhrase phrase => withCRLF phrase
  | c => (c.line?.map withCRLF).getD []

end Setter

theorem str_of_lt {s : List UInt8} (h : s.length < 2 ^ 32) : str s = s := by
  rw [str, Bytes.u32_of_lt h, List.take_length]

theorem Setter.Exact.written {lit : Literals} {c : Setter} (h : c.Exact) : c.written lit = c.wanted := by
  obtain ⟨hs, hd, hl⟩ := h
  have hstr := str_of_lt hl
  cases c with
  | setSever svr => exact absurd rfl hs
  | setDate date => exact absurd rfl hd
  | setBody body len => rfl
  | _ =>
    simp only [Setter.arg] at hstr
    simp [Setter.written, Setter.pieces, Setter.wanted, Setter.line?, Setter.header?, hstr, withCRLF, CRLF]

/-- An address has a null in it, which no header line has. -/
theorem Address.zero_mem (a : Address) : (0 : UInt8) ∈ a.bytes := by
  have h := a.user
  have hz : a.val / 256 / 256 / 256 / 256 / 256 / 256 / 256 = 0 := by omega
  simp [Address.bytes, leBytes, hz]

theorem Address.not_header (a : Address) {name value x y : List UInt8} (hn : 0 ∉ name) (hv : 0 ∉ value)
    (hl : 6 ≤ name.length) : withCRLF (name ++ value) ++ x ≠ a.bytes ++ y := by
  intro h
  have hlen : a.bytes.length = 8 := Bytes.length_leBytes 8 a.val
  have hline : a.bytes.length ≤ (withCRLF (name ++ value)).length := by
    rw [length_withCRLF, List.length_append]
    omega
  obtain ⟨z, hz⟩ := List.prefix_of_prefix_length_le (h ▸ List.prefix_append a.bytes y)
    (List.prefix_append (withCRLF (name ++ value)) x) hline
  have h0 : (0 : UInt8) ∈ withCRLF (name ++ value) := hz ▸ List.mem_append_left z a.zero_mem
  simp only [withCRLF, List.mem_append, hn, hv, or_false, false_or] at h0
  exact absurd h0 (by decide)

theorem Setter.length_wanted {c : Setter} (h : c.flag ≠ .E_BODY) : c.arg.length ≤ c.wanted.length := by
  cases c with
  | setBody body len => exact absurd rfl h
  | _ => simp [Setter.arg, Setter.wanted, Setter.line?, Setter.header?, withCRLF]; try omega

theorem exact_of_written {lit : Literals} {calls : List Setter} {x y : List UInt8} (hb : ∀ c ∈ calls, c.flag ≠ .E_BODY)
    (h0 : ∀ c ∈ calls, 0 ∉ c.arg) (hlen : (calls.flatMap Setter.wanted).length < 2 ^ 32)
    (h : calls.flatMap Setter.wanted ++ x = calls.flatMap (Setter.written lit) ++ y) : ∀ c ∈ calls, c.Exact := by
  induction calls with
  | nil => simp
  | cons c calls ih =>
    rw [List.flatMap_cons, List.flatMap_cons, List.append_assoc, List.append_assoc] at h
    rw [List.flatMap_cons, List.length_append] at hlen
    have harg := Setter.length_wanted (hb c List.mem_cons_self)
    have hzero := h0 c List.mem_cons_self
    have hc : c.Exact := by
      refine ⟨fun hs => ?_, fun hd => ?_, by omega⟩
      · cases c with
        | setSever svr =>
          simp only [Setter.written, Setter.pieces, List.flatten_cons, List.append_assoc] at h
          have hname : 0 ∉ text "Server: " := by decide
          have hlen : 6 ≤ (text "Server: ").length := by decide
          exact lit.server.not_header hname hzero hlen h
        | _ => cases hs
      · cases c with
        | setDate date =>
          simp only [Setter.written, Setter.pieces, List.flatten_cons, List.append_assoc] at h
          have hname : 0 ∉ text "Date: " := by decide
          have hlen : 6 ≤ (text "Date: ").length := by decide
          exact lit.date.not_header hname hzero hlen h
        | _ => cases hd
    rw [hc.written] at h
    refine List.forall_mem_cons.mpr ⟨hc, ih (fun d hd => hb d (List.mem_cons_of_mem _ hd))
      (fun d hd => h0 d (List.mem_cons_of_mem _ hd)) (by omega) (List.append_cancel_left h)⟩

theorem Setter.wanted_of_line {c : Setter} {l : List UInt8} (h : c.line? = some l) : c.wanted = withCRLF l := by
  cases c with
  | setHttpVersion ver => cases h
  | setStatusCode status => cases h
  | setStatusPhrase phrase => cases h
  | setBody body len => cases h
  | _ => cases h; rfl

theorem flatMap_wanted_filter (calls : List Setter) : (calls.filter (·.header?.isSome)).flatMap Setter.wanted =
    ((calls.filterMap Setter.line?).map withCRLF).flatten := by
  induction calls with
  | nil => rfl
  | cons c calls ih =>
    cases hc : c.header? with
    | none =>
      have hl : c.line? = none := by rw [Setter.line?, hc]; rfl
      rw [List.filter_cons_of_neg (by simp [hc]), List.filterMap_cons_none hl, ih]
    | some p =>
      have hl : c.line? = some (p.1 ++ p.2) := by rw [Setter.line?, hc]; rfl
      rw [List.filter_cons_of_pos (by simp [hc]), List.filterMap_cons_some hl, List.flatMap_cons, List.map_cons,
        List.flatten_cons, Setter.wanted_of_line hl, ih]

theorem Shape.headBytes_sent {calls : List Setter} (h : Shape calls) (body : List UInt8) :
    (sent calls body).headBytes = (complete calls).flatMap Setter.wanted ++
      (text "Content-Length: " ++ (ofNat body.length ++ (CRLF ++ CRLF))) := by
  have htype : (if .E_CONT_TYPE ∈ calls.map Setter.flag then []
      else [Setter.setContentType (text "text/html;charset=utf-8")]).flatMap Setter.wanted =
      ((if .E_CONT_TYPE ∈ calls.map Setter.flag then []
        else [text "Content-Type: text/html;charset=utf-8"]).map withCRLF).flatten := by
    split <;> rfl
  rw [h.complete_eq]
  simp only [List.flatMap_cons, List.flatMap_append, flatMap_wanted_filter, htype, Response.headBytes, sent,
    List.map_append, List.flatten_append, Setter.wanted, List.append_assoc, List.cons_append, List.nil_append]
  simp [withCRLF, CRLF]

/-! ## The head that should come -/

theorem NoBreak.of_not_mem {l : List UInt8} (h : CR ∉ l) : NoBreak l :=
  fun hin => h (hin.subset List.mem_cons_self)

theorem Plain.getD {calls : List Setter} (hplain : ∀ c ∈ calls, c.Plain) {part : Setter → Option (List UInt8)}
    {P : List UInt8 → Prop} {d : List UInt8} (hd : P d) (h : ∀ c l, c.Plain → part c = some l → P l) :
    P ((calls.findSome? part).getD d) := by
  cases hf : calls.findSome? part with
  | none => exact hd
  | some l =>
    obtain ⟨c, hc, hl⟩ := List.exists_of_findSome?_eq_some hf
    exact h c l (hplain c hc) hl

/-- The names that are written as they should be. -/
def headerNames : List (List UInt8) :=
  [text "Location: ", text "Content-Encoding: ", text "Content-Type: ", text "Content-Language: "]

theorem Setter.line_eq {c : Setter} {l : List UInt8} (hl : c.line? = some l) :
    (∃ name ∈ headerNames, l = name ++ c.arg) ∨ (c.flag = .E_SERVER ∧ l = text "Server: " ++ c.arg) ∨
      (c.flag = .E_DATE ∧ l = text "Date: " ++ c.arg) := by
  cases c with
  | setHttpVersion ver => cases hl
  | setStatusCode status => cases hl
  | setStatusPhrase phrase => cases hl
  | setBody body len => cases hl
  | setSever svr =>
    cases hl
    exact .inr (.inl ⟨rfl, rfl⟩)
  | setDate date =>
    cases hl
    exact .inr (.inr ⟨rfl, rfl⟩)
  | _ =>
    cases hl
    exact .inl ⟨_, by simp [headerNames], rfl⟩

theorem header_line_append {name value : List UInt8} (hn : name ≠ [] ∧ CR ∉ name) (hv : CR ∉ value) :
    name ++ value ≠ [] ∧ NoBreak (name ++ value) :=
  ⟨fun h => hn.1 (List.append_eq_nil_iff.mp h).1, .of_not_mem fun h => (List.mem_append.mp h).elim hn.2 hv⟩

theorem Setter.line_of_plain {c : Setter} (hc : c.Plain) {l : List UInt8} (hl : c.line? = some l) :
    l ≠ [] ∧ NoBreak l := by
  have hnames : ∀ name ∈ headerNames, name ≠ [] ∧ CR ∉ name := by decide
  rcases Setter.line_eq hl with ⟨name, hname, rfl⟩ | ⟨-, rfl⟩ | ⟨-, rfl⟩
  · exact header_line_append (hnames name hname) hc.2.1
  · exact header_line_append (by decide) hc.2.1
  · exact header_line_append (by decide) hc.2.1

theorem Setter.not_taken {c : Setter} (hc : c.Exact) {l : List UInt8} (hl : c.line? = some l) : ¬ Taken l := by
  have hnames : ∀ name ∈ headerNames, 10 ≤ name.length ∧ name.take 10 ≠ constr.take 10 := by decide
  rcases Setter.line_eq hl with ⟨name, hname, rfl⟩ | ⟨hs, -⟩ | ⟨hd, -⟩
  · obtain ⟨hlen, hne⟩ := hnames name hname
    intro ht
    have h10 := congrArg (List.take 10) ht.2
    rw [List.take_take, List.take_take, show min 10 14 = 10 from rfl, List.take_append_of_le_length hlen] at h10
    exact hne h10
  · exact absurd hs hc.1
  · exact absurd hd hc.2.1

theorem mem_headers_sent {calls : List Setter} {body : List UInt8} {l : List UInt8}
    (h : l ∈ (sent calls body).headers) : (∃ c ∈ calls, c.line? = some l) ∨
      l = text "Content-Type: text/html;charset=utf-8" ∨ l = constr ++ ofNat body.length := by
  rcases List.mem_append.mp h with h | h
  · rcases List.mem_append.mp h with h | h
    · exact .inl (List.mem_filterMap.mp h)
    · split at h
      · cases h
      · exact .inr (.inl (List.mem_singleton.mp h))
  · exact .inr (.inr (List.mem_singleton.mp h))

/-- The head of what should come. -/
def sentHead (calls : List Setter) (body : List UInt8) (hplain : ∀ c ∈ calls, c.Plain) : Head where
  first := (sent calls body).version
  second := (sent calls body).statusCode
  third := (sent calls body).statusPhrase
  headers := (sent calls body).headers
  first_word := by
    refine Plain.getD hplain (P := fun l => SP ∉ l) (by decide) fun c l hc hl => ?_
    cases c <;> cases hl
    exact hc.2.2.2 (.inl rfl)
  second_word := by
    refine Plain.getD hplain (P := fun l => SP ∉ l) (by decide) fun c l hc hl => ?_
    cases c <;> cases hl
    exact hc.2.2.2 (.inr rfl)
  third_line := by
    refine Plain.getD hplain (P := NoBreak) (by decide) fun c l hc hl => ?_
    cases c <;> cases hl
    exact .of_not_mem hc.2.1
  header_line := by
    intro l hl
    rcases mem_headers_sent hl with ⟨c, hc, hl⟩ | rfl | rfl
    · exact Setter.line_of_plain (hplain c hc) hl
    · decide
    · refine header_line_append (by decide) fun hcr => ?_
      exact absurd (isDigit_of_mem_ofNat hcr) (by decide)

theorem contentLen_sent {calls : List Setter} {body : List UInt8} (hexact : ∀ c ∈ calls, c.Exact)
    (hlen : body.length < 2 ^ 31) : contentLen (sent calls body).headers = .ok body.length := by
  refine contentLen_announced (fun l hl => ?_) hlen
  rcases List.mem_append.mp hl with hl | hl
  · obtain ⟨c, hc, hl⟩ := List.mem_filterMap.mp hl
    exact Setter.not_taken (hexact c hc) hl
  · split at hl
    · cases hl
    · rw [List.mem_singleton.mp hl]
      decide

/-! ## Round trips -/

/-- The calls, then `SetBody`, then others: whenever all return true, the client has the response. -/
def RoundTrip (lit : Literals) (calls : List Setter) (body : List UInt8) (len : Int32) : Prop :=
  ∀ later m, HttpSvrSendMsg.init.callAll lit (calls ++ .setBody body len :: later) = some m →
    Parsed.Gives m.toString (sent calls (body.take len.toInt.toNat))

theorem defaults_ok : ∀ c ∈ defaults, c.Plain ∧ c.Exact ∧ c.flag ≠ .E_BODY := by decide

theorem forall_complete {P : Setter → Prop} {calls : List Setter} (h : ∀ c ∈ calls, P c) (hd : ∀ c ∈ defaults, P c) :
    ∀ c ∈ complete calls, P c := fun c hc => (mem_complete hc).elim (h c) (hd c)

theorem flatMap_written {lit : Literals} {l : List Setter} (h : ∀ c ∈ l, c.Exact) :
    l.flatMap (Setter.written lit) = l.flatMap Setter.wanted := List.flatMap_congr fun c hc => (h c hc).written

def literals : Literals := ⟨⟨4198400, by decide⟩, ⟨4198412, by decide⟩, ⟨4198416, by decide⟩, ⟨4198412, by decide⟩⟩

def redirect : List Setter :=
  [.setHttpVersion (text "HTTP/1.0"), .setStatusCode (text "302"), .setStatusPhrase (text "Moved Temporarily"),
    .setLocation (text "/new")]

end GlobalServer.Http

import GlobalServer.Lib.Decimal

/-!
# The HTTP messages of netio

`slience/netio/httpmsg.hpp`: HttpSvrRecvMsg parses a request, HttpCliRecvMsg a
response, from the bytes as they come. They share HttpBaseMsg and differ in the
names of the three parts of the start line. `_buffer` is only written and
cleared, so it is kept as the bytes written since; positions are offsets in it,
which an `int` holds.
-/

namespace GlobalServer.Http

open Bytes Decimal

inductive Flag
  | E_PARSE_METHOD
  | E_PARSE_URL
  | E_PARSE_VER
  | E_PARSE_STATUS_CODE
  | E_PARSE_STATUS_PHRASE
  | E_PARSE_HEAD
  | E_PARSE_BODY
  | E_PARSE_OVER
  deriving DecidableEq, Repr

/-- `strpos` -/
structure StrPos where
  beg : Nat
  fin : Nat
  deriving DecidableEq, Repr

/-- HttpBaseMsg with the parts of the start line: `_method`, `_url`, `_ver`, or `_version`, `_statuscode`,
`_statusphrase`. -/
structure HttpBaseMsg where
  buffer : List UInt8
  first : StrPos
  second : StrPos
  third : StrPos
  header : StrPos
  header2 : StrPos
  body : StrPos
  flag : Flag
  assistflag : Bool
  bodysize : Int
  headerVec : List StrPos
  deriving DecidableEq, Repr

/-- The flags under which the parts of a start line are parsed. -/
structure StartLine where
  first : Flag
  second : Flag
  third : Flag

def SP : UInt8 := 32
def CR : UInt8 := 13
def LF : UInt8 := 10

/-- `_constr` -/
def constr : List UInt8 := [67, 111, 110, 116, 101, 110, 116, 45, 76, 101, 110, 103, 116, 104, 58, 32]

example : constr = "Content-Length: ".toList.map Char.toUInt8 := by decide

/-- `_Parse1`: how many bytes to copy, and whether they end with `chr`. -/
def parse1 (chr : UInt8) : List UInt8 → Nat × Bool
  | [] => (0, false)
  | b :: l => if b = chr then (1, true) else ((parse1 chr l).1 + 1, (parse1 chr l).2)

/-- `_Parse2`, which takes two bytes of none. -/
def parse2 (chr1 chr2 : UInt8) : List UInt8 → Nat × Bool
  | [] => (2, false)
  | [_] => (1, false)
  | b1 :: b2 :: l =>
    if b1 = chr1 ∧ b2 = chr2 then (2, true)
    else ((parse2 chr1 chr2 (b2 :: l)).1 + 1, (parse2 chr1 chr2 (b2 :: l)).2)

/-- What a parse step returns: the bytes used, beside the message. -/
abbrev Parsed := Except Fault (HttpBaseMsg × Nat)

/-- `copy_len + ..` -/
def Parsed.after (n : Nat) (p : Parsed) : Parsed := p.map fun r => (r.1, n + r.2)

namespace HttpBaseMsg

/-- `HttpBaseMsg::Clear`, with the start line and the flag as the two messages clear them. -/
def clear (flag : Flag) : HttpBaseMsg where
  buffer := []
  first := ⟨0, 0⟩
  second := ⟨0, 0⟩
  third := ⟨0, 0⟩
  header := ⟨0, 0⟩
  header2 := ⟨0, 0⟩
  body := ⟨0, 0⟩
  flag := flag
  assistflag := false
  bodysize := -1
  headerVec := []

def write (s : HttpBaseMsg) (bs : List UInt8) : HttpBaseMsg := { s with buffer := s.buffer ++ bs }

def getBody (s : HttpBaseMsg) : List UInt8 :=
  if s.body.fin = 0 then [] else (s.buffer.drop s.body.beg).take (s.body.fin - s.body.beg)

/-! ## Content-Length -/

/-- The comparison of a line with `_constr`: what is left of the two after the first difference, or before the blank. -/
def compareConstr : (psrc pbeg : List UInt8) → List UInt8 × List UInt8
  | c :: psrc, b :: pbeg =>
    if c = SP then (c :: psrc, b :: pbeg) else if b ≠ c then (psrc, pbeg) else compareConstr psrc pbeg
  | psrc, pbeg => (psrc, pbeg)

/-- `atoi` of a copy with room for eleven characters: behind ten of them there is still a null. -/
def readLen (value : List UInt8) : Except Fault Int :=
  if value.length ≤ 10 ∨ (value.length = 11 ∧ stops value) then .ok (atoi value) else .error .outOfBounds

/-- The value that a header line gives, where its beginning is taken for `_constr`. -/
def lineLen (pbeg : List UInt8) : Option (Except Fault Int) :=
  let (psrc, pbeg) := compareConstr constr pbeg
  if psrc.head? = some SP then
    some (readLen (pbeg.tail.takeWhile (· ≠ CR)))
  else none

def checkLines (data : List UInt8) : List StrPos → Except Fault Int
  | [] => .ok 0
  | iter :: l =>
    -- include '\r\n'
    if iter.fin - iter.beg < 18 then checkLines data l
    else match lineLen (data.drop iter.beg) with
      | some ret => ret
      | none => checkLines data l

/-- `_CheckContentLen` -/
def checkContentLen (s : HttpBaseMsg) : Except Fault Int := checkLines s.buffer s.headerVec

/-! ## The parts of a message -/

/-- The first bytes behind the head: is there a "Content-Length"? -/
def beginBody (s : HttpBaseMsg) : Except Fault HttpBaseMsg :=
  s.checkContentLen.map fun bodysize =>
    if bodysize = 0 then { s with bodysize, flag := .E_PARSE_OVER }
    else { s with bodysize, body := { s.body with beg := s.buffer.length } }

/-- The bytes that are still to come, with `_flag` at E_PARSE_BODY. A negative length is an enormous one for `Write`. -/
def copyBody (s : HttpBaseMsg) (buffer : List UInt8) : Parsed :=
  let copyLen := i32 (s.bodysize - (s.buffer.length - s.body.beg : Int))
  if (buffer.length : Int) < copyLen then .ok (s.write buffer, buffer.length)
  else if copyLen < 0 then .error .outOfBounds
  else
    let s := { s with flag := .E_PARSE_OVER }.write (buffer.take copyLen.toNat)
    .ok ({ s with body := { s.body with fin := s.buffer.length } }, copyLen.toNat)

def parseBody (s : HttpBaseMsg) (buffer : List UInt8) : Parsed :=
  if buffer = [] then .ok (s, 0)
  else (if s.bodysize = -1 then s.beginBody else .ok s) >>= fun s =>
    if s.bodysize = 0 then .ok (s, 0) else s.copyBody buffer

/-- The beginning of `_ParseVer`, `_ParseStatusPhrase` and `_ParseHead`: the bytes up to the end of the line, if it is
there. `_assistflag` is set between its two bytes. -/
def takeLine (s : HttpBaseMsg) (buffer : List UInt8) : HttpBaseMsg × Nat × Bool :=
  let (s, copyLen, hit) :=
    if s.assistflag then
      if buffer.head? ≠ some LF then ({ s with assistflag := false }, parse2 CR LF buffer) else (s, 1, true)
    else (s, parse2 CR LF buffer)
  let s := s.write (buffer.take copyLen)
  if hit then ({ s with assistflag := false }, copyLen, true)
  else (if !s.assistflag && s.buffer.getLast? = some CR then { s with assistflag := true } else s, copyLen, false)

/-- The end of a header line; an empty one ends the head. -/
def endLine (s : HttpBaseMsg) : HttpBaseMsg :=
  let pos := s.buffer.length
  let header2 : StrPos := { s.header2 with fin := pos }
  let s := { s with header2, header := { s.header with fin := pos }, headerVec := s.headerVec ++ [header2] }
  if header2.beg + 2 = header2.fin then { s with flag := .E_PARSE_BODY }
  else { s with flag := .E_PARSE_HEAD, header2 := ⟨pos, 0⟩ }

/-- `_ParseHead`, line after line; each takes bytes, so their number bounds the recursion. -/
def parseHead : Nat → HttpBaseMsg → List UInt8 → Parsed
  | 0, s, _ => .ok (s, 0)
  | n + 1, s, buffer =>
    if buffer = [] then .ok (s, 0)
    else match s.takeLine buffer with
      | (s, copyLen, true) =>
        let s := s.endLine
        let rest := buffer.drop copyLen
        if s.flag = .E_PARSE_BODY then Parsed.after copyLen (s.parseBody rest)
        else Parsed.after copyLen (parseHead n s rest)
      | (s, copyLen, false) => .ok (s, copyLen)

def endThird (s : HttpBaseMsg) : HttpBaseMsg :=
  let pos := s.buffer.length
  { s with third := { s.third with fin := pos - 2 }, flag := .E_PARSE_HEAD,
           header2 := { s.header2 with beg := pos }, header := { s.header with beg := pos } }

/-- `_ParseVer` of a request, `_ParseStatusPhrase` of a response. -/
def parseThird (s : HttpBaseMsg) (buffer : List UInt8) : Parsed :=
  if buffer = [] then .ok (s, 0)
  else match s.takeLine buffer with
    | (s, copyLen, true) =>
      let rest := buffer.drop copyLen
      Parsed.after copyLen (parseHead rest.length s.endThird rest)
    | (s, copyLen, false) => .ok (s, copyLen)

def endSecond (line : StartLine) (s : HttpBaseMsg) : HttpBaseMsg :=
  let pos := s.buffer.length
  { s with second := { s.second with fin := pos - 1 }, flag := line.third, third := { s.third with beg := pos } }

/-- `_ParseUrl` of a request, `_ParseStatusCode` of a response. -/
def parseSecond (line : StartLine) (s : HttpBaseMsg) (buffer : List UInt8) : Parsed :=
  if buffer = [] then .ok (s, 0)
  else
    let (copyLen, hit) := parse1 SP buffer
    let s := s.write (buffer.take copyLen)
    if hit then Parsed.after copyLen ((endSecond line s).parseThird (buffer.drop copyLen))
    else .ok (s, copyLen)

def endFirst (line : StartLine) (s : HttpBaseMsg) : HttpBaseMsg :=
  let pos := s.buffer.length
  { s with first := { s.first with fin := pos - 1 }, flag := line.second, second := { s.second with beg := pos } }

/-- `_ParseMethod` of a request, `_ParseVer` of a response. -/
def parseFirst (line : StartLine) (s : HttpBaseMsg) (buffer : List UInt8) : Parsed :=
  let (copyLen, hit) := parse1 SP buffer
  let s := s.write (buffer.take copyLen)
  if hit then Parsed.after copyLen (parseSecond line (endFirst line s) (buffer.drop copyLen))
  else .ok (s, copyLen)

end HttpBaseMsg

open HttpBaseMsg

/-! ## The two messages -/

namespace HttpSvrRecvMsg

def line : StartLine := ⟨.E_PARSE_METHOD, .E_PARSE_URL, .E_PARSE_VER⟩

def clear : HttpBaseMsg := HttpBaseMsg.clear .E_PARSE_METHOD

def parse (s : HttpBaseMsg) (buffer : List UInt8) : Parsed :=
  match s.flag with
  | .E_PARSE_METHOD => parseFirst line s buffer
  | .E_PARSE_URL => parseSecond line s buffer
  | .E_PARSE_VER => parseThird s buffer
  | .E_PARSE_HEAD => parseHead buffer.length s buffer
  | .E_PARSE_BODY => parseBody s buffer
  | _ => .ok (s, 0)

end HttpSvrRecvMsg

namespace HttpCliRecvMsg

def line : StartLine := ⟨.E_PARSE_VER, .E_PARSE_STATUS_CODE, .E_PARSE_STATUS_PHRASE⟩

def clear : HttpBaseMsg := HttpBaseMsg.clear .E_PARSE_VER

def parse (s : HttpBaseMsg) (buffer : List UInt8) : Parsed :=
  match s.flag with
  | .E_PARSE_VER => parseFirst line s buffer
  | .E_PARSE_STATUS_CODE => parseSecond line s buffer
  | .E_PARSE_STATUS_PHRASE => parseThird s buffer
  | .E_PARSE_HEAD => parseHead buffer.length s buffer
  | .E_PARSE_BODY => parseBody s buffer
  | _ => .ok (s, 0)

end HttpCliRecvMsg

/-- The message type that a socket is made for. -/
inductive HttpMsgType
  | svr
  | cli
  deriving DecidableEq, Repr

namespace HttpMsgType

def line : HttpMsgType → StartLine
  | .svr => HttpSvrRecvMsg.line
  | .cli => HttpCliRecvMsg.line

def clear : HttpMsgType → HttpBaseMsg
  | .svr => HttpSvrRecvMsg.clear
  | .cli => HttpCliRecvMsg.clear

def parse : HttpMsgType → HttpBaseMsg → List UInt8 → Parsed
  | .svr => HttpSvrRecvMsg.parse
  | .cli => HttpCliRecvMsg.parse

end HttpMsgType

end GlobalServer.Http

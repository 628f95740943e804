import GlobalServer.Lib.Decimal
import GlobalServer.Lib.Runs
import GlobalServer.Lib.Separated
import Mathlib.Logic.Function.Basic

/-!
# The connections of one thread: `MysqlPool`

A pooled connection is under a key that is put together from what it was
opened with and the database it uses. `UseDb` takes the key apart again, and
calculates a new one when the server has switched. Whether the server accepts
a connection or a database is part of a call.
-/

namespace GlobalServer

/-- The bytes of a `const char*`. -/
abbrev CString := List UInt8

/-- What `GetConnection` is asked for. -/
structure SqlParams where
  host : CString
  user : CString
  passwd : CString
  db : CString
  port : UInt16
  deriving DecidableEq

structure SqlConnection where
  /-- what `_st_mysql` has been connected with, and the database it uses now -/
  params : SqlParams
  unistr : CString
  deriving DecidableEq

/-- `_mysqlinfo_`, and the connections that have been opened. -/
structure MysqlPool where
  errorMsg : CString
  info : CString → Option Nat
  conns : Nat → SqlConnection
  connTop : Nat

/-- The byte of `:`. -/
def colon : UInt8 := 58

namespace MysqlPool

def calcUniStr (host user passwd db : CString) (port : UInt16) : CString :=
  host ++ [colon] ++ user ++ [colon] ++ passwd ++ [colon] ++ db ++ [colon] ++ Decimal.ofNat port.toNat

/-- The host, the user, the password, the database and the port of a key. -/
def analyseUniStr (str : CString) : Option (CString × CString × CString × CString × CString) :=
  match str.splitOn colon with
  | [host, user, passwd, db, port] => some (host, user, passwd, db, port)
  | _ => none

end MysqlPool

namespace SqlParams

def uniStr (q : SqlParams) : CString := MysqlPool.calcUniStr q.host q.user q.passwd q.db q.port

/-- What `_CalcUniStr` puts together. -/
def fields (q : SqlParams) : CString × CString × CString × CString × CString :=
  (q.host, q.user, q.passwd, q.db, Decimal.ofNat q.port.toNat)

/-- No separator is in a field. -/
structure Plain (q : SqlParams) : Prop where
  host : colon ∉ q.host
  user : colon ∉ q.user
  passwd : colon ∉ q.passwd
  db : colon ∉ q.db

end SqlParams

namespace MysqlPool

def init : MysqlPool :=
  { errorMsg := [], info := fun _ => none, connTop := 0
    conns := fun _ => { params := { host := [], user := [], passwd := [], db := [], port := 0 }, unistr := [] } }

/-- `snprintf` into `error_msg` -/
def setError (s : MysqlPool) (msg : CString) : MysqlPool := { s with errorMsg := msg.take 255 }

/-- The arguments, if none of them is a null pointer. -/
def params (host user passwd db : Option CString) (port : UInt16) : Option SqlParams := do
  some { host := ← host, user := ← user, passwd := ← passwd, db := ← db, port }

def someParamIsEmpty : CString := "some param is empty".toList.map Char.toUInt8

/-- A new connection, under its key. -/
def addConnection (s : MysqlPool) (q : SqlParams) : MysqlPool :=
  { s with
    conns := Function.update s.conns s.connTop { params := q, unistr := q.uniStr }
    connTop := s.connTop + 1
    info := Function.update s.info q.uniStr (some s.connTop) }

/-- `GetConnection`; `opened` is what comes of the attempt to open a connection. -/
def getConnection (s : MysqlPool) (host user passwd db : Option CString) (port : UInt16) (opened : Except CString Unit) :
    MysqlPool × Option Nat :=
  match params host user passwd db port with
  | none => (s.setError someParamIsEmpty, none)
  | some q => match s.info q.uniStr with
    | some p => (s, some p)
    | none => match opened with
      | .error msg => (s.setError msg, none)
      | .ok () => (s.addConnection q, some s.connTop)

/-- The connection uses another database and is under another key. -/
def setDb (s : MysqlPool) (p : Nat) (newDb newUnistr : CString) : MysqlPool :=
  let conn := s.conns p
  { s with
    conns := Function.update s.conns p { params := { conn.params with db := newDb }, unistr := newUnistr }
    info := Function.update (Function.update s.info newUnistr (some p)) conn.unistr none }

/-- `UseDb`; `selected` says whether the server has switched. -/
def useDb (s : MysqlPool) (ptr : Option Nat) (newDb : CString) (selected : Bool) : MysqlPool × Bool :=
  match ptr with
  | none => (s, false)
  | some p => match analyseUniStr (s.conns p).unistr with
    | none => (s, false)
    | some (host, user, passwd, _, port) =>
      if selected then
        (s.setDb p newDb (calcUniStr host user passwd newDb (UInt16.ofInt (Decimal.atoi port))), true)
      else (s, false)

/-! ## Calls -/

inductive Call where
  | getConnection (host user passwd db : Option CString) (port : UInt16) (opened : Except CString Unit)
  | useDb (ptr : Option Nat) (newDb : CString) (selected : Bool)

def step (s : MysqlPool) : Call → MysqlPool
  | .getConnection host user passwd db port opened => (s.getConnection host user passwd db port opened).1
  | .useDb ptr newDb selected => (s.useDb ptr newDb selected).1

/-- A pointer is one that `GetConnection` has returned. -/
def Valid (s : MysqlPool) : Call → Prop
  | .getConnection _ _ _ _ _ _ => True
  | .useDb ptr _ _ => ∀ p, ptr = some p → p < s.connTop

/-- The call does what it should: a connection is as it was asked for, and after a switch it is under its new key and
no other. A key that is calculated on the way can be taken apart again. -/
def CallOk (s : MysqlPool) : Call → Prop
  | .getConnection host user passwd db port opened => ∀ q, params host user passwd db port = some q →
    analyseUniStr q.uniStr = some q.fields ∧
      ∀ p, (s.getConnection host user passwd db port opened).2 = some p →
        ((s.getConnection host user passwd db port opened).1.conns p).params = q
  | .useDb ptr newDb selected => ∀ p, ptr = some p → (s.useDb ptr newDb selected).2 = true →
    ∃ q, q = { (s.conns p).params with db := newDb } ∧ analyseUniStr q.uniStr = some q.fields ∧
      ((s.useDb ptr newDb selected).1.conns p).params = q ∧
      ∀ k, (s.useDb ptr newDb selected).1.info k = some p ↔ k = q.uniStr

/-- What a call must be like: no field has a separator in it, and a database that is selected is another one. -/
def Plain (s : MysqlPool) : Call → Prop
  | .getConnection host user passwd db port _ => ∀ q, params host user passwd db port = some q → q.Plain
  | .useDb ptr newDb selected => ∀ p, ptr = some p → selected = true → colon ∉ newDb ∧ newDb ≠ (s.conns p).params.db

/-! ## Keys -/

theorem colon_notMem_ofNat (n : Nat) : colon ∉ Decimal.ofNat n := by
  intro h
  have := Decimal.isDigit_of_mem_ofNat h
  cases this

theorem uniStr_eq (q : SqlParams) :
    q.uniStr = [colon].intercalate [q.host, q.user, q.passwd, q.db, Decimal.ofNat q.port.toNat] := by
  simp [SqlParams.uniStr, calcUniStr, List.intercalate]

theorem analyseUniStr_uniStr (q : SqlParams) : analyseUniStr q.uniStr = some q.fields ↔ q.Plain := by
  have hp : (∀ l ∈ [q.host, q.user, q.passwd, q.db, Decimal.ofNat q.port.toNat], colon ∉ l) ↔ q.Plain := by
    simp only [List.forall_mem_cons, List.not_mem_nil, false_implies, implies_true, and_true, colon_notMem_ofNat,
      not_false_eq_true]
    exact ⟨fun h => ⟨h.1, h.2.1, h.2.2.1, h.2.2.2⟩, fun h => ⟨h.host, h.user, h.passwd, h.db⟩⟩
  rw [← hp, ← Separated.splitOn_intercalate_iff (by simp), ← uniStr_eq]
  unfold analyseUniStr SqlParams.fields
  constructor
  · intro h
    split at h
    · rename_i he
      rw [he]
      simpa using h
    · cases h
  · intro h
    rw [h]

theorem uniStr_inj {q q' : SqlParams} (h : q.Plain) (h' : q'.Plain) (he : q.uniStr = q'.uniStr) : q = q' := by
  have hf := (analyseUniStr_uniStr q).mpr h
  rw [he, (analyseUniStr_uniStr q').mpr h'] at hf
  simp only [SqlParams.fields, Option.some.injEq, Prod.mk.injEq] at hf
  obtain ⟨h1, h2, h3, h4, h5⟩ := hf
  have hport : q'.port.toNat = q.port.toNat := by
    rw [← Decimal.digits_ofNat q'.port.toNat, h5, Decimal.digits_ofNat]
  cases q
  cases q'
  simp only [SqlParams.mk.injEq]
  exact ⟨h1.symm, h2.symm, h3.symm, h4.symm, UInt16.toNat_inj.mp hport.symm⟩

/-! ## The pool -/

/-- Each connection is under the key of what it is, if it is under one at all. -/
structure Keyed (s : MysqlPool) : Prop where
  conns : ∀ p < s.connTop, (s.conns p).params.Plain ∧ (s.conns p).unistr = (s.conns p).params.uniStr
  info : ∀ k p, s.info k = some p → p < s.connTop ∧ (s.conns p).unistr = k

theorem keyed_init : init.Keyed where
  conns := fun p hp => absurd hp (Nat.not_lt_zero p)
  info := fun k p h => by cases h

theorem keyed_setError {s : MysqlPool} (h : s.Keyed) (msg : CString) : (s.setError msg).Keyed := ⟨h.conns, h.info⟩

theorem keyed_addConnection {s : MysqlPool} (h : s.Keyed) {q : SqlParams} (hq : q.Plain) : (s.addConnection q).Keyed := by
  constructor
  · intro p hp
    simp only [addConnection] at hp ⊢
    by_cases hpt : p = s.connTop
    · subst hpt
      rw [Function.update_self]
      exact ⟨hq, rfl⟩
    · rw [Function.update_of_ne hpt]
      exact h.conns p (by omega)
  · intro k p hi
    simp only [addConnection] at hi ⊢
    by_cases hk : k = q.uniStr
    · subst hk
      rw [Function.update_self] at hi
      cases hi
      rw [Function.update_self]
      exact ⟨Nat.lt_succ_self _, rfl⟩
    · rw [Function.update_of_ne hk] at hi
      obtain ⟨hlt, hu⟩ := h.info k p hi
      rw [Function.update_of_ne (Nat.ne_of_lt hlt)]
      exact ⟨Nat.lt_succ_of_lt hlt, hu⟩

section
variable {s : MysqlPool} (h : s.Keyed) {p : Nat} (hp : p < s.connTop) (newDb : CString)
include h hp

theorem useDb_eq (selected : Bool) : s.useDb (some p) newDb selected =
    if selected then (s.setDb p newDb { (s.conns p).params with db := newDb : SqlParams }.uniStr, true) else (s, false) := by
  obtain ⟨hplain, hu⟩ := h.conns p hp
  have hport : UInt16.ofInt (Decimal.atoi (Decimal.ofNat (s.conns p).params.port.toNat)) = (s.conns p).params.port := by
    have hlt := (s.conns p).params.port.toNat_lt
    rw [Decimal.atoi_ofNat (by omega), UInt16.ofInt, ← UInt16.toNat_inj, UInt16.toNat_ofNat']
    omega
  unfold useDb
  simp only [hu, (analyseUniStr_uniStr _).mpr hplain, SqlParams.fields, hport]
  rfl

theorem keyed_setDb (hdb : colon ∉ newDb) :
    (s.setDb p newDb { (s.conns p).params with db := newDb : SqlParams }.uniStr).Keyed := by
  obtain ⟨hplain, hu⟩ := h.conns p hp
  constructor
  · intro p' hp'
    simp only [setDb]
    by_cases he : p' = p
    · subst he
      rw [Function.update_self]
      exact ⟨⟨hplain.host, hplain.user, hplain.passwd, hdb⟩, rfl⟩
    · rw [Function.update_of_ne he]
      exact h.conns p' hp'
  · intro k p' hi
    simp only [setDb] at hi ⊢
    obtain ⟨hold, hi⟩ : k ≠ (s.conns p).unistr ∧
        Function.update s.info { (s.conns p).params with db := newDb : SqlParams }.uniStr (some p) k = some p' := by
      by_cases hk : k = (s.conns p).unistr
      · rw [hk, Function.update_self] at hi
        cases hi
      · rw [Function.update_of_ne hk] at hi
        exact ⟨hk, hi⟩
    by_cases hk : k = { (s.conns p).params with db := newDb : SqlParams }.uniStr
    · subst hk
      rw [Function.update_self] at hi
      cases hi
      rw [Function.update_self]
      exact ⟨hp, rfl⟩
    · rw [Function.update_of_ne hk] at hi
      obtain ⟨hlt, hk'⟩ := h.info k p' hi
      -- `p` itself was under its old key only
      have hne : p' ≠ p := fun e => hold (by rw [← e, hk'])
      rw [Function.update_of_ne hne]
      exact ⟨hlt, hk'⟩

/-- After a switch the connection is under its new key alone, unless it is the old one. -/
theorem setDb_info (k : CString) :
    (s.setDb p newDb { (s.conns p).params with db := newDb : SqlParams }.uniStr).info k = some p ↔
      k = { (s.conns p).params with db := newDb : SqlParams }.uniStr ∧ k ≠ (s.conns p).params.uniStr := by
  have hu := (h.conns p hp).2
  simp only [setDb, hu]
  by_cases hold : k = (s.conns p).params.uniStr
  · rw [hold, Function.update_self]
    simp
  · rw [Function.update_of_ne hold]
    by_cases hk : k = { (s.conns p).params with db := newDb : SqlParams }.uniStr
    · subst hk
      simpa using hold
    · rw [Function.update_of_ne hk]
      constructor
      · intro hi
        have := (h.info k p hi).2
        exact absurd (this.symm.trans hu) hold
      · intro hk'
        exact absurd hk'.1 hk

end

/-! ## Runs -/

theorem keyed_step {s : MysqlPool} (h : s.Keyed) {c : Call} (hv : s.Valid c) (hc : s.Plain c) : (s.step c).Keyed := by
  cases c with
  | getConnection host user passwd db port opened =>
    show (s.getConnection host user passwd db port opened).1.Keyed
    unfold getConnection
    cases hq : params host user passwd db port with
    | none => exact keyed_setError h _
    | some q =>
      simp only
      cases s.info q.uniStr with
      | some p => exact h
      | none =>
        cases opened with
        | error msg => exact keyed_setError h _
        | ok _ => exact keyed_addConnection h (hc q hq)
  | useDb ptr newDb selected =>
    unfold step
    cases ptr with
    | none => exact h
    | some p =>
      have hp := hv p rfl
      simp only
      rw [useDb_eq h hp]
      cases selected with
      | false => exact h
      | true => exact keyed_setDb h hp newDb (hc p rfl rfl).1

theorem callOk_iff {s : MysqlPool} (h : s.Keyed) {c : Call} (hv : s.Valid c) : s.CallOk c ↔ s.Plain c := by
  cases c with
  | getConnection host user passwd db port opened =>
    constructor
    · intro hok q hq
      exact (analyseUniStr_uniStr q).mp (hok q hq).1
    · intro hc q hq
      refine ⟨(analyseUniStr_uniStr q).mpr (hc q hq), fun p hp => ?_⟩
      unfold getConnection at hp ⊢
      simp only [hq] at hp ⊢
      cases hi : s.info q.uniStr with
      | some p' =>
        simp only [hi] at hp ⊢
        cases hp
        obtain ⟨hlt, hu⟩ := h.info _ _ hi
        obtain ⟨hplain, hu'⟩ := h.conns _ hlt
        exact uniStr_inj hplain (hc q hq) (hu'.symm.trans hu)
      | none =>
        simp only [hi] at hp ⊢
        cases opened with
        | error msg => cases hp
        | ok _ =>
          cases hp
          simp only [addConnection, Function.update_self]
  | useDb ptr newDb selected =>
    unfold CallOk Plain
    simp only
    refine forall_congr' fun p => forall_congr' fun hptr => ?_
    subst hptr
    have hp := hv p rfl
    obtain ⟨hplain, -⟩ := h.conns p hp
    rw [useDb_eq h hp]
    cases selected with
    | false => simp
    | true =>
      simp only [if_true, forall_const, exists_eq_left, analyseUniStr_uniStr]
      constructor
      · intro hok
        obtain ⟨hq, -, hinfo⟩ := hok
        refine ⟨hq.db, fun he => ?_⟩
        have hi := (hinfo _).mpr rfl
        rw [setDb_info h hp] at hi
        apply hi.2
        rw [he]
      · intro hc
        have hq : { (s.conns p).params with db := newDb : SqlParams }.Plain :=
          ⟨hplain.host, hplain.user, hplain.passwd, hc.1⟩
        refine ⟨hq, by simp only [setDb, Function.update_self], fun k => ?_⟩
        rw [setDb_info h hp]
        refine ⟨fun hk => hk.1, fun hk => ⟨hk, fun hold => hc.2 ?_⟩⟩
        exact congrArg SqlParams.db (uniStr_inj hq hplain (hk.symm.trans hold))

/-- The runs whose calls are plain. -/
abbrev Run (t : List Call) (s : MysqlPool) : Prop :=
  Runs.Run (fun s c s' => s' = s.step c) (fun _ s c => s.Valid c ∧ s.Plain c) init t s

/-- Whatever calls there were, as long as they were plain: the next one does what it should exactly if it is plain. -/
theorem pool_ok_iff {t : List Call} {s : MysqlPool} (h : Run t s) (c : Call) (hv : s.Valid c) : s.CallOk c ↔ s.Plain c := by
  refine callOk_iff ?_ hv
  refine Runs.Run.invariant (fun _ s => s.Keyed) keyed_init ?_ h
  intro t s c s' _ hk hc hs
  rw [hs]
  exact keyed_step hk hc.1 hc.2

/-- A connection is opened, and the same arguments give it again. -/
theorem pool_ok_again :
    (init.step (.getConnection (some [104]) (some [117]) (some []) (some [97]) 3306 (.ok ()))).CallOk
      (.getConnection (some [104]) (some [117]) (some []) (some [97]) 3306 (.ok ())) := by
  have hv (s : MysqlPool) : s.Valid (.getConnection (some [104]) (some [117]) (some []) (some [97]) 3306 (.ok ())) :=
    trivial
  have hplain (s : MysqlPool) : s.Plain (.getConnection (some [104]) (some [117]) (some []) (some [97]) 3306 (.ok ())) := by
    intro q hq
    cases hq
    exact ⟨by decide, by decide, by decide, by decide⟩
  have hrun : Run [.getConnection (some [104]) (some [117]) (some []) (some [97]) 3306 (.ok ())] _ :=
    .snoc .nil ⟨hv init, hplain init⟩ rfl
  exact (pool_ok_iff hrun _ (hv _)).mpr (hplain _)

/-- The user `u:` with the password `p` gets the connection of the user `u` with the password `:p`. -/
theorem wrong_connection :
    ¬ (init.step (.getConnection (some [104]) (some [117]) (some [58, 112]) (some [97]) 3306 (.ok ()))).CallOk
      (.getConnection (some [104]) (some [117, 58]) (some [112]) (some [97]) 3306 (.ok ())) := by
  intro h
  obtain ⟨-, hconn⟩ := h _ rfl
  have := hconn 0 (by decide)
  revert this
  decide

end MysqlPool

end GlobalServer

import GlobalServer.Transaction.Transaction

/-!
# `MysqlQuery` and its rows

A worker answers a query with a response, which has the result set if the
server has given one. `MysqlQuery` finds the response when its wait ends, and
calls its callback for the rows. What there is of the wait in it is in the
model of the application; here it ends in one of the ways that a query can end.
-/

namespace GlobalServer.MysqlQuery

open Bytes

/-- `MYSQL_RES`, whose cursor is before the first row. -/
structure MysqlRes (Row : Type) where
  fieldCount : UInt32
  rows : List Row
  deriving DecidableEq

/-- How the server behaves on a connection. `Execute` gives back an error and how many rows are affected. -/
structure Served (Row : Type) where
  execute : Int × Int
  storeResult : Option (MysqlRes Row)
  isDupEntry : Bool
  deriving DecidableEq

structure MysqlRsp (Row : Type) where
  errCode : Int
  affectedRows : Int
  mysqlRes : Option (MysqlRes Row)
  isDupEntry : Bool
  deriving DecidableEq

inductive ReqType where
  | query
  | execute
  deriving DecidableEq

section
variable {Row : Type}

/-- `proccss`: without a connection there is an error; `mysql_num_rows` of no result set has no value. -/
def proccss (type : ReqType) : Option (Served Row) → Option (MysqlRsp Row)
  | none => some { errCode := -1, affectedRows := 0, mysqlRes := none, isDupEntry := false }
  | some served =>
    let rsp : MysqlRsp Row :=
      { errCode := served.execute.1, affectedRows := 0, mysqlRes := none
        isDupEntry := served.execute.1 ≠ 0 && served.isDupEntry }
    match type with
    | .query =>
      if served.execute.1 = 0 then
        served.storeResult.map fun res => { rsp with mysqlRes := some res, affectedRows := i32 res.rows.length }
      else some rsp
    | .execute => some { rsp with affectedRows := served.execute.2 }

def E_MYSQL_SUCCESS : Int := 0

def E_MYSQL_DUP_KEY : Int := -1

def E_MYSQL_ERROR : Int := -2

/-- What a query comes to: what it returns, `affected_rows`, and the calls of the callback. -/
structure Query (Row : Type) where
  ret : Int
  affectedRows : Int
  calls : List (Int × Row)
  deriving DecidableEq

/-- The loop over the rows; `idx` is never counted up. -/
def callRows (idx : Int) : List Row → List (Int × Row)
  | [] => []
  | row :: rows => (idx, row) :: callRows idx rows

/-- `MysqlQuery` with the response that it has found. -/
def mysqlQueryRsp (rsp : MysqlRsp Row) (affectedRows expectedFields : Int) : Option (Query Row) :=
  if rsp.errCode ≠ 0 then
    some { ret := if rsp.isDupEntry then E_MYSQL_DUP_KEY else E_MYSQL_ERROR, affectedRows, calls := [] }
  else match rsp.mysqlRes with
    | none => none
    | some result =>
      if expectedFields ≠ i32 result.fieldCount.toNat then some { ret := E_MYSQL_ERROR, affectedRows, calls := [] }
      else some { ret := E_MYSQL_SUCCESS, affectedRows := rsp.affectedRows, calls := callRows 0 result.rows }

/-- How a query can end: it is not added, the wait ends without its response, or a worker answers it. -/
inductive Outcome (Row : Type) where
  | notAdded
  | timeout
  | answered (served : Option (Served Row))
  deriving DecidableEq

/-- `MysqlQuery`; `old` is whether `_mysql_rsp` points to an earlier response, which is deleted by then. -/
def mysqlQuery (old : Bool) (o : Outcome Row) (affectedRows expectedFields : Int) : Option (Query Row) :=
  match o with
  | .notAdded => some { ret := E_MYSQL_ERROR, affectedRows, calls := [] }
  | .timeout => if old then none else some { ret := E_MYSQL_ERROR, affectedRows, calls := [] }
  | .answered served => (proccss .query served).bind fun rsp => mysqlQueryRsp rsp affectedRows expectedFields

/-! ## What a query is for -/

/-- The result set that the server gives without an error, with the fields that are expected. -/
def Outcome.result (o : Outcome Row) (expectedFields : Int) : Option (MysqlRes Row) :=
  match o with
  | .answered (some served) =>
    if served.execute.1 = 0 then served.storeResult.filter fun res => expectedFields = i32 res.fieldCount.toNat else none
  | _ => none

/-- With a result set the callback is called for each row with its index, otherwise there is an error and nothing
else. -/
def Right (result : Option (MysqlRes Row)) (affectedRows : Int) (q : Query Row) : Prop :=
  match result with
  | some res => q.ret = 0 ∧ q.affectedRows = i32 res.rows.length ∧ q.calls = res.rows.mapIdx fun i row => ((i : Int), row)
  | none => q.ret ≠ 0 ∧ q.affectedRows = affectedRows ∧ q.calls = []

/-- No earlier response is left when the wait ends without one, the result of what has been executed can be stored,
and it has one row at most. -/
structure Meets (old : Bool) (o : Outcome Row) (expectedFields : Int) : Prop where
  fresh : o = .timeout → old = false
  stored : ∀ served, o = .answered (some served) → served.execute.1 = 0 → served.storeResult ≠ none
  rows : ∀ res, o.result expectedFields = some res → res.rows.length ≤ 1

theorem callRows_eq_map (idx : Int) (rows : List Row) : callRows idx rows = rows.map fun row => (idx, row) := by
  induction rows with
  | nil => rfl
  | cons row rows ih => rw [callRows, ih, List.map_cons]

/-- The index stays 0, which is right as long as there is no second row. -/
theorem callRows_eq_iff (rows : List Row) :
    (callRows 0 rows = rows.mapIdx fun i row => ((i : Int), row)) ↔ rows.length ≤ 1 := by
  rw [callRows_eq_map]
  match rows with
  | [] => simp
  | [row] => simp
  | row :: row' :: rows => simp [List.mapIdx_cons]

theorem callRows_length (idx : Int) (rows : List Row) : (callRows idx rows).length = rows.length := by
  rw [callRows_eq_map, List.length_map]

/-! ## The model of the application -/

/-- The response as the model of the application has it. -/
def MysqlRsp.seen (rsp : MysqlRsp Row) (transId : UInt32) : GlobalServer.MysqlRsp where
  transId
  errCode := rsp.errCode
  numFields := (rsp.mysqlRes.map fun res => res.fieldCount.toNat).getD 0
  rows := (rsp.mysqlRes.map fun res => res.rows.length).getD 0

theorem mysqlQueryRsp_app {rsp : MysqlRsp Row} {fields : Nat} {affectedRows : Int} {query : Query Row}
    (h : mysqlQueryRsp rsp affectedRows fields = some query)
    (hf : ∀ res, rsp.mysqlRes = some res → res.fieldCount.toNat < 2 ^ 31) (a : App) (p q : Nat) (transId : UInt32)
    (calls : List Call) :
    a.mysqlQueryRsp p fields q (rsp.seen transId) calls = match query.calls with
      | [] => (a.clearMysqlRsp p).goto p (.code calls)
      | _ :: rest => a.goto p (.code (⟨q, rest.length⟩ :: calls)) := by
  unfold mysqlQueryRsp at h
  unfold App.mysqlQueryRsp
  by_cases he : rsp.errCode ≠ 0
  · rw [if_pos he] at h
    cases h
    rw [if_pos (.inl he)]
  · rw [if_neg he] at h
    cases hres : rsp.mysqlRes with
    | none =>
      rw [hres] at h
      cases h
    | some res =>
      have hi : i32 res.fieldCount.toNat = res.fieldCount.toNat := i32_of_range (by omega) (by have := hf res hres; omega)
      have hn : (rsp.seen transId).numFields = res.fieldCount.toNat := by simp [MysqlRsp.seen, hres]
      have hrows : (rsp.seen transId).rows = res.rows.length := by simp [MysqlRsp.seen, hres]
      rw [hres] at h
      dsimp only at h
      rw [hi] at h
      rw [hn, hrows]
      by_cases hfields : fields = res.fieldCount.toNat
      · rw [if_neg (by simpa using hfields)] at h
        cases h
        rw [if_neg (by rintro (h | h); exacts [he h, h hfields])]
        cases res.rows with
        | nil => rfl
        | cons row rows => simp [callRows, callRows_length]
      · rw [if_pos (by exact_mod_cast hfields)] at h
        cases h
        rw [if_pos (.inr hfields)]

/-! ## When it is right -/

variable {old : Bool} {o : Outcome Row} {affectedRows expectedFields : Int}

theorem dup_or_error_ne (dup : Bool) : (if dup then E_MYSQL_DUP_KEY else E_MYSQL_ERROR) ≠ 0 := by
  cases dup <;> decide

/-- The query does what it is for. -/
def Works (old : Bool) (o : Outcome Row) (affectedRows expectedFields : Int) : Prop :=
  ∃ q, mysqlQuery old o affectedRows expectedFields = some q ∧ Right (o.result expectedFields) affectedRows q

theorem works_iff_of_error (ret : Int) (hq : mysqlQuery old o affectedRows expectedFields = some ⟨ret, affectedRows, []⟩)
    (hret : ret ≠ 0) (hres : o.result expectedFields = none) (hf : o = .timeout → old = false)
    (hs : ∀ served, o = .answered (some served) → served.execute.1 = 0 → served.storeResult ≠ none) :
    Works old o affectedRows expectedFields ↔ Meets old o expectedFields := by
  refine iff_of_true ⟨_, hq, ?_⟩ ⟨hf, hs, fun res h => ?_⟩
  · rw [hres]
    exact ⟨hret, rfl, rfl⟩
  · cases hres.symm.trans h

theorem works_iff_of_result (res : MysqlRes Row)
    (hq : mysqlQuery old o affectedRows expectedFields = some ⟨E_MYSQL_SUCCESS, i32 res.rows.length, callRows 0 res.rows⟩)
    (hres : o.result expectedFields = some res) (hf : o = .timeout → old = false)
    (hs : ∀ served, o = .answered (some served) → served.execute.1 = 0 → served.storeResult ≠ none) :
    Works old o affectedRows expectedFields ↔ Meets old o expectedFields := by
  constructor
  · rintro ⟨q, hq', hr⟩
    cases hq.symm.trans hq'
    rw [hres] at hr
    refine ⟨hf, hs, fun res' h => ?_⟩
    cases hres.symm.trans h
    exact (callRows_eq_iff _).mp hr.2.2
  · intro h
    refine ⟨_, hq, ?_⟩
    rw [hres]
    exact ⟨rfl, rfl, (callRows_eq_iff _).mpr (h.rows res hres)⟩

theorem works_served_iff (served : Served Row) :
    Works old (.answered (some served)) affectedRows expectedFields ↔ Meets old (.answered (some served)) expectedFields := by
  have stored {r : Option (MysqlRes Row)} (hs : served.storeResult = r) (h : served.execute.1 = 0 → r ≠ none) :
      ∀ served' : Served Row, Outcome.answered (some served) = .answered (some served') → served'.execute.1 = 0 →
        served'.storeResult ≠ none := by
    intro served' he
    cases he
    rwa [hs]
  by_cases he : served.execute.1 = 0
  · cases hs : served.storeResult with
    | none =>
      refine iff_of_false ?_ fun h => h.stored served rfl he hs
      rintro ⟨q, hq, -⟩
      simp [mysqlQuery, proccss, he, hs] at hq
    | some res =>
      by_cases hf : expectedFields = i32 res.fieldCount.toNat
      · refine works_iff_of_result res ?_ ?_ nofun (stored hs nofun)
        · simp [mysqlQuery, proccss, mysqlQueryRsp, he, hs, ← hf]
        · simp [Outcome.result, he, hs, hf]
      · refine works_iff_of_error E_MYSQL_ERROR ?_ (by decide) ?_ nofun (stored hs nofun)
        · simp [mysqlQuery, proccss, mysqlQueryRsp, he, hs, hf]
        · simp [Outcome.result, he, hs, hf]
  · refine works_iff_of_error _ ?_ (dup_or_error_ne served.isDupEntry) ?_ nofun (stored rfl fun h => absurd h he)
    · simp [mysqlQuery, proccss, mysqlQueryRsp, he]
    · simp [Outcome.result, he]

/-- A query does what it is for exactly when it finds no earlier response, its result can be stored, and there is no
second row. -/
theorem mysqlQuery_works_iff (old : Bool) (o : Outcome Row) (affectedRows expectedFields : Int) :
    Works old o affectedRows expectedFields ↔ Meets old o expectedFields := by
  cases o with
  | notAdded => exact works_iff_of_error E_MYSQL_ERROR rfl (by decide) rfl nofun nofun
  | timeout =>
    cases old with
    | true => exact iff_of_false (fun ⟨_, h, _⟩ => nomatch h) fun h => nomatch h.fresh rfl
    | false => exact works_iff_of_error E_MYSQL_ERROR rfl (by decide) rfl (fun _ => rfl) nofun
  | answered served =>
    cases served with
    | none => exact works_iff_of_error E_MYSQL_ERROR rfl (by decide) rfl nofun nofun
    | some served => exact works_served_iff served

/-- A result set with two rows of one field -/
def twoRows : Outcome String :=
  .answered (some { execute := (0, 0), storeResult := some { fieldCount := 1, rows := ["a", "b"] }, isDupEntry := false })

/-- The second row is called with the index of the first. -/
theorem twoRows_not_works : ¬ Works false twoRows 0 1 := by
  have hq : mysqlQuery false twoRows 0 1 = some ⟨E_MYSQL_SUCCESS, 2, callRows 0 ["a", "b"]⟩ := by
    simp [mysqlQuery, twoRows, proccss, mysqlQueryRsp, i32]
  have hres : twoRows.result 1 = some ⟨1, ["a", "b"]⟩ := by simp [twoRows, Outcome.result, i32]
  rintro ⟨q, hq', hr⟩
  cases hq.symm.trans hq'
  rw [hres] at hr
  exact absurd hr.2.2 (by decide)

end

end GlobalServer.MysqlQuery

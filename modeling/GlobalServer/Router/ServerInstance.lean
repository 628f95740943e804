import GlobalServer.Lib.Bytes
import GlobalServer.Lib.OrdMap
import Mathlib.Data.UInt
import Mathlib.Logic.Function.Basic

/-!
# The router's table of server instances

`SeverInstanceMgr` keeps one entry for each instance that has logged in and
one for each server type, which shares with its instances the set of their
ids. A type and an id are packed into one 32-bit key. The table has a second
index, by descriptor, and it is kept here in that index's order.
-/

namespace GlobalServer

open Bytes

def POLICY_ROUTER : UInt32 := 0

def POLICY_RANDOM : UInt32 := 1

def POLICY_MOD : UInt32 := 2

def POLICY_BROADCAST : UInt32 := 3

structure Policy where
  svrType : UInt32
  policy : UInt32
  deriving DecidableEq

/-- The instances of a server type; `instSet` is a `std::set`. -/
structure InstContainer where
  policy : UInt32
  instSet : List (Int × Unit)
  deriving DecidableEq

structure SvrInstInfo where
  typeInst : Int
  fd : Int
  instId : Int
  online : Bool
  /-- where its `InstContainer` is -/
  info : Nat
  deriving DecidableEq

def calcTypeId (type : UInt32) (id : Int) : Int := i32 (type.toNat * 1024 + id)

/-- `_info_container` in the order of its index by descriptor. -/
abbrev SvrInstInfoContainer := List SvrInstInfo

namespace SvrInstInfoContainer

def findType (l : SvrInstInfoContainer) (typeInst : Int) : Option SvrInstInfo :=
    l.find? fun x => x.typeInst = typeInst

/-- The first entry with the descriptor. -/
def findFd (l : SvrInstInfoContainer) (fd : Int) : Option SvrInstInfo := l.find? fun x => x.fd = fd

/-- Where an entry comes in the index by descriptor: after those of the same one. -/
def link (x : SvrInstInfo) : SvrInstInfoContainer → SvrInstInfoContainer
  | [] => [x]
  | y :: l => if y.fd ≤ x.fd then y :: link x l else x :: y :: l

/-- `insert`, which the unique index by key may refuse. -/
def insert (l : SvrInstInfoContainer) (x : SvrInstInfo) : Option SvrInstInfoContainer :=
  match l.findType x.typeInst with
  | some _ => none
  | none => some (link x l)

/-- The entry between `pre` and `post` stays where it is when its new descriptor allows it. -/
def inPlace (pre : List SvrInstInfo) (x : SvrInstInfo) (post : List SvrInstInfo) : Bool :=
  (pre.getLast?.all fun y => decide (y.fd ≤ x.fd)) && post.head?.all fun y => decide (x.fd ≤ y.fd)

/-- `modify` of the entry with the key, by `FuncModifySvrInstInfo`; `pre` has been passed. -/
def modify (fd : Int) (online : Bool) (typeInst : Int) (pre : List SvrInstInfo) : SvrInstInfoContainer →
    SvrInstInfoContainer
  | [] => pre
  | x :: l =>
    if x.typeInst = typeInst then
      let x := { x with fd, online }
      if inPlace pre x l then pre ++ x :: l else link x (pre ++ l)
    else modify fd online typeInst (pre ++ [x]) l

end SvrInstInfoContainer

structure SeverInstanceMgr where
  config : Option (List Policy)
  infoContainer : SvrInstInfoContainer
  /-- the `InstContainer` at each address, of which `infoTop` have been made -/
  info : Nat → InstContainer
  infoTop : Nat

namespace SeverInstanceMgr

def init (config : Option (List Policy)) : SeverInstanceMgr :=
  { config, infoContainer := [], info := fun _ => { policy := 0, instSet := [] }, infoTop := 0 }

/-- `GetPolicy` -/
def getPolicy (config : Option (List Policy)) (serverType : UInt32) : Option Policy :=
  config.bind fun l => l.find? fun p => p.svrType = serverType

/-- `type_inst_index.modify` -/
def modify (m : SeverInstanceMgr) (typeInst fd : Int) (online : Bool) : SeverInstanceMgr :=
  { m with infoContainer := SvrInstInfoContainer.modify fd online typeInst [] m.infoContainer }

/-- `new InstContainer` -/
def newInfo (m : SeverInstanceMgr) (c : InstContainer) : SeverInstanceMgr :=
  { m with info := Function.update m.info m.infoTop c, infoTop := m.infoTop + 1 }

/-- The entry of the type, made if there is none. -/
def basic (m : SeverInstanceMgr) (serverType : UInt32) (policy : Policy) : Option (SeverInstanceMgr × SvrInstInfo) :=
  let basicId := calcTypeId serverType 0
  match m.infoContainer.findType basicId with
  | some x => some (m, x)
  | none =>
    let x := { typeInst := basicId, fd := 0, instId := 0, online := false, info := m.infoTop }
    let m := m.newInfo { policy := policy.policy, instSet := [] }
    (m.infoContainer.insert x).map fun l => ({ m with infoContainer := l }, x)

/-- `inst_set.insert` in the `InstContainer` at `a`. -/
def insertInst (m : SeverInstanceMgr) (a : Nat) (instanceId : Int) : SeverInstanceMgr :=
  { m with info := Function.update m.info a { m.info a with instSet := OrdMap.insert instanceId () (m.info a).instSet } }

/-- `LoginInstance` once its arguments are checked. -/
def enter (m : SeverInstanceMgr) (serverType : UInt32) (policy : Policy) (instanceId fd : Int) :
    SeverInstanceMgr × Int :=
  match m.basic serverType policy with
  | none => (m, -1)
  | some b =>
    let typeInst := calcTypeId serverType instanceId
    match b.1.infoContainer.findType typeInst with
    | some _ => (b.1.modify typeInst fd true, 0)
    | none =>
      let m := b.1.insertInst b.2.info instanceId
      match m.infoContainer.insert { typeInst, fd, instId := instanceId, online := true, info := b.2.info } with
      | none => (m, -1)
      | some l => ({ m with infoContainer := l }, 0)

/-- `LoginInstance` and what it returns. -/
def loginInstance (m : SeverInstanceMgr) (serverType : UInt32) (instanceId fd : Int) : SeverInstanceMgr × Int :=
  match getPolicy m.config serverType with
  | none => (m, -1)
  | some policy => if instanceId = 0 then (m, -1) else m.enter serverType policy instanceId fd

def logoutInstance (m : SeverInstanceMgr) (fd : Int) : SeverInstanceMgr :=
  if fd = 0 then m
  else match m.infoContainer.findFd fd with
    | none => m
    | some x => m.modify x.typeInst 0 false

def getFdByTypeId (m : SeverInstanceMgr) (serverType : UInt32) (instanceId : Int) : Int :=
  match m.infoContainer.findType (calcTypeId serverType instanceId) with
  | none => 0
  | some x => x.fd

/-- The instances that a policy chooses among all, added to `instVec`. -/
def choose (policy : UInt32) (uid : UInt64) (isBroadcast : Bool) (allInst instVec : List Int) : List Int :=
  if allInst = [] then instVec
  else if isBroadcast then allInst
  else if policy = POLICY_RANDOM then instVec ++ allInst.take 1
  else if policy = POLICY_MOD then instVec ++ allInst[uid.toNat % allInst.length]?.toList
  else if policy = POLICY_BROADCAST then allInst
  else instVec

/-- `RouterPolicy` and what is in `inst_vec` after it. -/
def routerPolicy (m : SeverInstanceMgr) (uid : UInt64) (serverType : UInt32) (isBroadcast : Bool)
    (instVec : List Int) : List Int :=
  match m.infoContainer.findType (calcTypeId serverType 0) with
  | none => instVec
  | some x => choose (m.info x.info).policy uid isBroadcast ((m.info x.info).instSet.map Prod.fst) instVec

/-! ## Sequences of calls -/

inductive Op where
  | login (serverType : UInt32) (instanceId fd : Int)
  | logout (fd : Int)
  deriving DecidableEq

def apply (m : SeverInstanceMgr) : Op → SeverInstanceMgr
  | .login serverType instanceId fd => (m.loginInstance serverType instanceId fd).1
  | .logout fd => m.logoutInstance fd

/-- The table after a sequence of calls. -/
def after (config : Option (List Policy)) (ops : List Op) : SeverInstanceMgr := ops.foldl apply (init config)

@[simp] theorem after_nil (config : Option (List Policy)) : after config [] = init config := rfl

@[simp] theorem after_concat (config : Option (List Policy)) (ops : List Op) (op : Op) :
    after config (ops ++ [op]) = (after config ops).apply op := by
  simp [after]

end SeverInstanceMgr

end GlobalServer

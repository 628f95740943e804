import GlobalServer.Lib.Runs
import Mathlib.Algebra.Group.Int.Defs
import Mathlib.Data.List.Count

/-!
# The instances of server_agent

`AgentApplication` keeps a table of the instances it has started, pulls up
those whose check fails, and writes the table to a file, from which an agent
that is started again has it. `AddInstance` adds an instance only when one of
its name is there, and `DelInstance` does not write the file.
-/

namespace GlobalServer.Agent

/-- `agent::Instance` -/
structure Instance where
  instName : String
  startCmd : String
  stopCmd : String
  cleanCmd : String
  checkCmd : String
  checkCnt : Int
  deriving DecidableEq

/-- `agent::ExecuteCommandReq` -/
structure ExecuteCommandReq where
  inst : Instance
  curCmd : String
  deriving DecidableEq

/-- The text format of `agent::SvrAgentData`: `DebugString`, and `TextFormat::Parse` with what it leaves in the
message. -/
structure TextFormat (α : Type) where
  debugString : List Instance → α
  parse : α → Bool × List Instance

/-- The table, and what is in the file. -/
structure AgentApplication (α : Type) where
  agentData : List Instance
  file : Option α

/-- The function that takes a request. -/
inductive Handler where
  | onStartCmd
  | onStopCmd
  | onCleanCmd
  | onCheckCmd
  | onCmd
  deriving DecidableEq

def ExecuteCommandReq.handler (request : ExecuteCommandReq) : Handler :=
  if request.curCmd = request.inst.startCmd then .onStartCmd
  else if request.curCmd = request.inst.stopCmd then .onStopCmd
  else if request.curCmd = request.inst.cleanCmd then .onCleanCmd
  else if request.curCmd = request.inst.checkCmd then .onCheckCmd
  else .onCmd

namespace AgentApplication

variable {α : Type} (fmt : TextFormat α)

/-- `LoadAgentDataFile` of an agent that has no instances yet, and what it returns. -/
def loadAgentDataFile (file : Option α) : Int × List Instance :=
  match file with
  | none => (-1, [])
  | some ifs => if (fmt.parse ifs).1 then (0, (fmt.parse ifs).2) else (-2, (fmt.parse ifs).2)

/-- `OnInit` -/
def init (file : Option α) : AgentApplication α := { agentData := (loadAgentDataFile fmt file).2, file }

/-- `opens` says whether the file can be opened. -/
def saveAgentDataFile (s : AgentApplication α) (opens : Bool) : AgentApplication α :=
  if opens then { s with file := some (fmt.debugString s.agentData) } else s

def getInstance (s : AgentApplication α) (name : String) : Option Instance :=
  s.agentData.find? fun item => item.instName = name

def addInstance (s : AgentApplication α) (inst : Instance) (opens : Bool) : AgentApplication α :=
  match s.getInstance inst.instName with
  | none => s
  | some _ => { s with agentData := s.agentData ++ [inst] }.saveAgentDataFile fmt opens

/-- `DelInstance`, which takes out the first instance of the name. -/
def delInstance (s : AgentApplication α) (name : String) : AgentApplication α :=
  { s with agentData := s.agentData.eraseP fun item => item.instName = name }

/-- `OnCmd`, `system` being what `System` returns. -/
def onCmd (system : Int) : Int := if system ≠ 0 then -1 else 0

def onStartCmd (s : AgentApplication α) (request : ExecuteCommandReq) (system : Int) (opens : Bool) :
    AgentApplication α × Int :=
  if 0 = onCmd system then (s.addInstance fmt request.inst opens, 0) else (s, -1)

def onStopCmd (s : AgentApplication α) (request : ExecuteCommandReq) (system : Int) : AgentApplication α × Int :=
  (s.delInstance request.inst.instName, onCmd system)

/-- `OnProc` for a request that could be parsed, with what its handler returns. -/
def onProc (s : AgentApplication α) (request : ExecuteCommandReq) (system : Int) (opens : Bool) :
    AgentApplication α × Int :=
  match request.handler with
  | .onStartCmd => s.onStartCmd fmt request system opens
  | .onStopCmd => s.onStopCmd request system
  | _ => (s, onCmd system)

/-- `del_instances` of `CheckAlive`, from the instance at `i` on: `system i` is what `System` returns for its
`check_cmd`. The counts are set in copies of the instances. -/
def delInstances (maxPullupServerCnt : Nat) (system : Nat → Int) : Nat → List Instance → List String
  | _, [] => []
  | i, item :: l =>
    if item.checkCmd = "" then delInstances maxPullupServerCnt system (i + 1) l
    else if system i = 0 then delInstances maxPullupServerCnt system (i + 1) l
    else if maxPullupServerCnt < item.checkCnt % 2 ^ 32 then
      item.instName :: delInstances maxPullupServerCnt system (i + 1) l
    else delInstances maxPullupServerCnt system (i + 1) l

def checkAlive (s : AgentApplication α) (maxPullupServerCnt : Nat) (system : Nat → Int) : AgentApplication α :=
  (delInstances maxPullupServerCnt system 0 s.agentData).foldl delInstance s

end AgentApplication

/-- What happens to an agent, with the results of the commands it calls. -/
inductive Event where
  | onProc (request : ExecuteCommandReq) (system : Int) (opens : Bool)
  | checkAlive (maxPullupServerCnt : Nat) (system : Nat → Int)
  /-- The agent ends, and another one is started. -/
  | restart

namespace AgentApplication

variable {α : Type} (fmt : TextFormat α)

def perform (s : AgentApplication α) : Event → AgentApplication α
  | .onProc request system opens => (s.onProc fmt request system opens).1
  | .checkAlive maxPullupServerCnt system => s.checkAlive maxPullupServerCnt system
  | .restart => init fmt s.file

/-- An agent started from the file has the instances of the table. -/
def Saved (s : AgentApplication α) : Prop := (loadAgentDataFile fmt s.file).2 = s.agentData

/-- How often an instance of the name is in the table. -/
def count (s : AgentApplication α) (name : String) : Nat := s.agentData.countP fun item => item.instName = name

/-- After the event the file has the table, a started instance is there once and a stopped one is not. -/
structure Kept (s : AgentApplication α) (e : Event) : Prop where
  saved : (s.perform fmt e).Saved fmt
  start : ∀ request system opens, e = .onProc request system opens → request.handler = .onStartCmd →
    (s.onProc fmt request system opens).2 = 0 → (s.perform fmt e).count request.inst.instName = 1
  stop : ∀ request system opens, e = .onProc request system opens → request.handler = .onStopCmd →
    (s.perform fmt e).count request.inst.instName = 0

/-- A start that fails, a stop of an instance that is not in the table, or a check at which no instance fails that has
been pulled up too often. -/
def Idle (s : AgentApplication α) : Event → Prop
  | .onProc request system _ =>
    (request.handler = .onStartCmd → system ≠ 0) ∧
      (request.handler = .onStopCmd → ∀ item ∈ s.agentData, item.instName ≠ request.inst.instName)
  | .checkAlive maxPullupServerCnt system => ∀ i, ∀ item : Instance, s.agentData[i]? = some item →
    item.checkCmd = "" ∨ system i = 0 ∨ item.checkCnt % 2 ^ 32 ≤ maxPullupServerCnt
  | .restart => True

/-! ## The table -/

section
variable {fmt} {s : AgentApplication α} {name : String}

@[simp] theorem saveAgentDataFile_agentData (opens : Bool) :
    (s.saveAgentDataFile fmt opens).agentData = s.agentData := by
  unfold saveAgentDataFile
  split <;> rfl

theorem count_eq_zero_iff : s.count name = 0 ↔ ∀ item ∈ s.agentData, item.instName ≠ name := by
  simp [count, List.countP_eq_zero]

theorem count_addInstance (inst : Instance) (opens : Bool) :
    (s.addInstance fmt inst opens).count inst.instName =
      if s.count inst.instName = 0 then 0 else s.count inst.instName + 1 := by
  unfold addInstance
  cases hf : s.getInstance inst.instName with
  | none =>
    have h0 : s.count inst.instName = 0 := by
      rw [count_eq_zero_iff]
      simpa [getInstance] using hf
    rw [if_pos h0]
    exact h0
  | some item =>
    have h0 : s.count inst.instName ≠ 0 := by
      rw [Ne, count_eq_zero_iff]
      intro h
      exact h item (List.mem_of_find?_eq_some hf) (by simpa using List.find?_some hf)
    rw [if_neg h0]
    simp [count, List.countP_append]

theorem delInstance_of_count (h : s.count name = 0) : s.delInstance name = s := by
  unfold delInstance
  rw [List.eraseP_of_forall_not (by simpa using count_eq_zero_iff.mp h)]

theorem length_delInstance_le : (s.delInstance name).agentData.length ≤ s.agentData.length :=
  (List.eraseP_sublist).length_le

theorem length_delInstance (h : s.count name ≠ 0) :
    (s.delInstance name).agentData.length + 1 = s.agentData.length := by
  rw [Ne, count_eq_zero_iff] at h
  push Not at h
  obtain ⟨item, hm, he⟩ := h
  have hlen := List.length_eraseP_of_mem (p := fun item => decide (item.instName = name)) hm (by simpa using he)
  have hpos := List.length_pos_of_mem hm
  unfold delInstance
  dsimp only
  omega

@[simp] theorem delInstance_file : (s.delInstance name).file = s.file := rfl

theorem foldl_delInstance (names : List String) : ∀ s : AgentApplication α,
    (names.foldl delInstance s).file = s.file ∧
      (names.foldl delInstance s).agentData.length ≤ s.agentData.length := by
  induction names with
  | nil => exact fun s => ⟨rfl, Nat.le_refl _⟩
  | cons name names ih =>
    intro s
    obtain ⟨hf, hl⟩ := ih (s.delInstance name)
    exact ⟨hf, Nat.le_trans hl length_delInstance_le⟩

theorem forall_getElem?_cons {α : Type} {a : α} {l : List α} {P : Nat → α → Prop} :
    (∀ i x, (a :: l)[i]? = some x → P i x) ↔ P 0 a ∧ ∀ i x, l[i]? = some x → P (i + 1) x := by
  constructor
  · intro h
    exact ⟨h 0 a rfl, fun i x hx => h (i + 1) x hx⟩
  · rintro ⟨h0, h⟩ i x hx
    cases i with
    | zero =>
      cases hx
      exact h0
    | succ i => exact h i x hx

theorem delInstances_eq_nil_iff {maxPullupServerCnt : Nat} {system : Nat → Int} (l : List Instance) : ∀ k : Nat,
    delInstances maxPullupServerCnt system k l = [] ↔ ∀ i, ∀ item : Instance, l[i]? = some item →
      item.checkCmd = "" ∨ system (k + i) = 0 ∨ item.checkCnt % 2 ^ 32 ≤ maxPullupServerCnt := by
  induction l with
  | nil => simp [delInstances]
  | cons item l ih =>
    intro k
    have hk : ∀ i, system (k + (i + 1)) = system (k + 1 + i) := fun i => congrArg system (by omega)
    rw [forall_getElem?_cons]
    simp only [hk]
    rw [← ih (k + 1), Nat.add_zero, delInstances]
    split
    · rename_i hc
      exact (and_iff_right (.inl hc)).symm
    · rename_i hc
      split
      · rename_i h0
        exact (and_iff_right (.inr (.inl h0))).symm
      · rename_i h0
        split
        · rename_i hlt
          refine iff_of_false (List.cons_ne_nil _ _) fun h => ?_
          rcases h.1 with h | h | h
          · exact hc h
          · exact h0 h
          · exact Int.not_lt.mpr h hlt
        · rename_i hle
          exact (and_iff_right (.inr (.inr (Int.not_lt.mp hle)))).symm

theorem idle_checkAlive_iff {maxPullupServerCnt : Nat} {system : Nat → Int} :
    s.Idle (.checkAlive maxPullupServerCnt system) ↔ delInstances maxPullupServerCnt system 0 s.agentData = [] := by
  rw [delInstances_eq_nil_iff]
  simp only [Nat.zero_add]
  rfl

theorem mem_delInstances {maxPullupServerCnt : Nat} {system : Nat → Int} (l : List Instance) : ∀ k : Nat,
    name ∈ delInstances maxPullupServerCnt system k l → ∃ item ∈ l, item.instName = name := by
  induction l with
  | nil => simp [delInstances]
  | cons item l ih =>
    intro k h
    have later : name ∈ delInstances maxPullupServerCnt system (k + 1) l → ∃ item' ∈ item :: l, item'.instName = name :=
      fun h => (ih (k + 1) h).imp fun _ hi => ⟨List.mem_cons_of_mem item hi.1, hi.2⟩
    unfold delInstances at h
    split at h
    · exact later h
    · split at h
      · exact later h
      · split at h
        · rcases List.mem_cons.mp h with rfl | h
          · exact ⟨item, List.mem_cons_self, rfl⟩
          · exact later h
        · exact later h

theorem length_checkAlive {maxPullupServerCnt : Nat} {system : Nat → Int}
    (h : delInstances maxPullupServerCnt system 0 s.agentData ≠ []) :
    (s.checkAlive maxPullupServerCnt system).agentData.length < s.agentData.length := by
  unfold checkAlive
  have hmem : ∀ name ∈ delInstances maxPullupServerCnt system 0 s.agentData, ∃ item ∈ s.agentData, item.instName = name :=
    fun name => mem_delInstances s.agentData 0
  generalize delInstances maxPullupServerCnt system 0 s.agentData = names at h hmem
  obtain ⟨name, names, rfl⟩ := List.exists_cons_of_ne_nil h
  have hc : s.count name ≠ 0 := by
    obtain ⟨item, hi, he⟩ := hmem name List.mem_cons_self
    rw [Ne, count_eq_zero_iff]
    exact fun h => h item hi he
  have hlen := length_delInstance hc
  have hle := (foldl_delInstance names (s.delInstance name)).2
  rw [List.foldl_cons]
  omega

/-! ## Events -/

theorem saved_init (file : Option α) : (init fmt file).Saved fmt := rfl

theorem onStartCmd_fails {request : ExecuteCommandReq} {system : Int} (h : system ≠ 0) (opens : Bool) :
    s.onStartCmd fmt request system opens = (s, -1) := by
  unfold onStartCmd onCmd
  rw [if_pos h, if_neg (by decide)]

theorem onStartCmd_succeeds {request : ExecuteCommandReq} (opens : Bool) :
    s.onStartCmd fmt request 0 opens = (s.addInstance fmt request.inst opens, 0) := rfl

theorem onProc_start {request : ExecuteCommandReq} (h : request.handler = .onStartCmd) (system : Int) (opens : Bool) :
    s.onProc fmt request system opens = s.onStartCmd fmt request system opens := by
  unfold onProc
  rw [h]

theorem onProc_stop {request : ExecuteCommandReq} (h : request.handler = .onStopCmd) (system : Int) (opens : Bool) :
    s.onProc fmt request system opens = s.onStopCmd request system := by
  unfold onProc
  rw [h]

theorem onProc_other {request : ExecuteCommandReq} (h₁ : request.handler ≠ .onStartCmd)
    (h₂ : request.handler ≠ .onStopCmd) (system : Int) (opens : Bool) :
    s.onProc fmt request system opens = (s, onCmd system) := by
  unfold onProc
  split
  · rename_i h
    exact absurd h h₁
  · rename_i h
    exact absurd h h₂
  · rfl

theorem perform_of_idle {e : Event} (hs : s.Saved fmt) (h : s.Idle e) : s.perform fmt e = s := by
  cases e with
  | onProc request system opens =>
    obtain ⟨h₁, h₂⟩ := h
    show (s.onProc fmt request system opens).1 = s
    by_cases hstart : request.handler = .onStartCmd
    · rw [onProc_start hstart, onStartCmd_fails (h₁ hstart)]
    · by_cases hstop : request.handler = .onStopCmd
      · rw [onProc_stop hstop]
        exact delInstance_of_count (count_eq_zero_iff.mpr (h₂ hstop))
      · rw [onProc_other hstart hstop]
  | checkAlive maxPullupServerCnt system =>
    show (delInstances maxPullupServerCnt system 0 s.agentData).foldl delInstance s = s
    rw [idle_checkAlive_iff.mp h]
    rfl
  | restart =>
    show AgentApplication.mk (loadAgentDataFile fmt s.file).2 s.file = s
    rw [hs]

theorem kept_of_idle {e : Event} (hs : s.Saved fmt) (h : s.Idle e) : s.Kept fmt e := by
  have hp := perform_of_idle hs h
  refine ⟨hp.symm ▸ hs, ?_, ?_⟩
  · rintro request system opens rfl hstart hret
    rw [onProc_start hstart, onStartCmd_fails (h.1 hstart)] at hret
    cases hret
  · rintro request system opens rfl hstop
    rw [hp]
    exact count_eq_zero_iff.mpr (h.2 hstop)

theorem length_eq_of_saved {s' : AgentApplication α} (hs : s.Saved fmt) (hs' : s'.Saved fmt) (hf : s'.file = s.file) :
    s'.agentData.length = s.agentData.length := by
  rw [← hs, ← hs', hf]

theorem idle_of_kept {e : Event} (hs : s.Saved fmt) (h : s.Kept fmt e) : s.Idle e := by
  obtain ⟨hsaved, hstart, hstop⟩ := h
  cases e with
  | onProc request system opens =>
    constructor
    · rintro hh rfl
      have hret : (s.onProc fmt request 0 opens).2 = 0 := by rw [onProc_start hh, onStartCmd_succeeds]
      have hone := hstart request 0 opens rfl hh hret
      have hp : s.perform fmt (.onProc request 0 opens) = s.addInstance fmt request.inst opens := by
        show (s.onProc fmt request 0 opens).1 = _
        rw [onProc_start hh, onStartCmd_succeeds]
      rw [hp, count_addInstance] at hone
      split at hone <;> omega
    · intro hh
      rw [← count_eq_zero_iff]
      by_contra hc
      have hp : s.perform fmt (.onProc request system opens) = s.delInstance request.inst.instName := by
        show (s.onProc fmt request system opens).1 = _
        rw [onProc_stop hh]
        rfl
      rw [hp] at hsaved
      have hlen := length_delInstance hc
      have heq := length_eq_of_saved hs hsaved rfl
      omega
  | checkAlive maxPullupServerCnt system =>
    rw [idle_checkAlive_iff]
    by_contra hne
    have hlt := length_checkAlive hne
    have hfile : (s.checkAlive maxPullupServerCnt system).file = s.file := (foldl_delInstance _ s).1
    have heq := length_eq_of_saved hs hsaved hfile
    exact absurd heq (Nat.ne_of_lt hlt)
  | restart => trivial

end

/-- Table and file are kept by every event of exactly the runs whose events are all idle. -/
theorem agentData_kept_iff (file : Option α) (t : List Event) :
    (∀ t₁ e, t₁ ++ [e] <+: t → (t₁.foldl (perform fmt) (init fmt file)).Kept fmt e) ↔
      ∀ t₁ e, t₁ ++ [e] <+: t → (t₁.foldl (perform fmt) (init fmt file)).Idle e :=
  Runs.always_foldl_iff (P := fun s : AgentApplication α => s.Saved fmt) (saved_init file)
    (fun _ _ hs => ⟨idle_of_kept hs, kept_of_idle hs⟩) (fun _ _ _ h => h.saved) t

end AgentApplication

/-- A format that is the list itself. -/
def listFormat : TextFormat (List Instance) := { debugString := id, parse := fun l => (true, l) }

def startConn : ExecuteCommandReq :=
  { inst := { instName := "connsvr.1", startCmd := "./start", stopCmd := "./stop", cleanCmd := "", checkCmd := "./check"
              checkCnt := 0 }
    curCmd := "./start" }

/-- The first instance that is started does not come into the table. -/
theorem start_not_added : ¬ (AgentApplication.init listFormat none).Kept listFormat (.onProc startConn 0 true) := by
  intro h
  have hone := h.start startConn 0 true rfl rfl rfl
  revert hone
  decide

end GlobalServer.Agent

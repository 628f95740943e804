import GlobalServer.Agent.ServerAgent
import GlobalServer.Lib.EraseFirst
import Mathlib.Logic.Function.Basic

/-!
# Restarts of failing instances

`CheckAlive` checks each instance of the table and pulls up those that fail.
Beside each instance we note how often its check has failed in a row, and how
often it has been started again for that. The counts that `CheckAlive` itself
sets are those of copies: the loop's `item` is no reference.
-/

namespace GlobalServer.Agent

/-- What `CheckAlive` does with an instance. -/
inductive Handled where
  | skipped
  | alive
  | givenUp
  | pulledUp
  deriving DecidableEq

/-- The turn of an instance, `system` being what its `check_cmd` returns. -/
def Instance.handled (item : Instance) (maxPullupServerCnt : Nat) (system : Int) : Handled :=
  if item.checkCmd = "" then .skipped
  else if system = 0 then .alive
  else if maxPullupServerCnt < item.checkCnt % 2 ^ 32 then .givenUp
  else .pulledUp

/-- An instance of the table, with its failed checks and its restarts since the last check that did not fail, and what
the last `CheckAlive` did with it. -/
structure Tracked where
  inst : Instance
  fails : Nat
  restarts : Nat
  last : Handled
  deriving DecidableEq

namespace Tracked

/-- The instance itself stays as it is. -/
def check (e : Tracked) (maxPullupServerCnt : Nat) (system : Int) : Tracked :=
  match e.inst.handled maxPullupServerCnt system with
  | .skipped => { e with last := .skipped }
  | .alive => { e with fails := 0, restarts := 0, last := .alive }
  | .givenUp => { e with fails := e.fails + 1, last := .givenUp }
  | .pulledUp => { e with fails := e.fails + 1, restarts := e.restarts + 1, last := .pulledUp }

def isGivenUp (e : Tracked) : Bool := e.last = .givenUp

end Tracked

/-- The loop of `CheckAlive`, from the instance at `i` on. -/
def checkAll (maxPullupServerCnt : Nat) (system : Nat → Int) : Nat → List Tracked → List Tracked
  | _, [] => []
  | i, e :: l => e.check maxPullupServerCnt (system i) :: checkAll maxPullupServerCnt system (i + 1) l

/-- `CheckAlive`, which at its end deletes an instance for each name it has given up. -/
def tick (maxPullupServerCnt : Nat) (l : List Tracked) (system : Nat → Int) : List Tracked :=
  let checked := checkAll maxPullupServerCnt system 0 l
  EraseFirst.eraseKeys (fun e => e.inst.instName) checked
    ((checked.filter Tracked.isGivenUp).map fun e => e.inst.instName)

/-- A table before its first tick. -/
def start (agentData : List Instance) : List Tracked :=
  agentData.map fun inst => { inst, fails := 0, restarts := 0, last := .skipped }

section
variable {maxPullupServerCnt : Nat} {system : Nat → Int}

@[simp] theorem Tracked.check_inst (e : Tracked) (system : Int) : (e.check maxPullupServerCnt system).inst = e.inst := by
  unfold check
  split <;> rfl

@[simp] theorem Tracked.check_last (e : Tracked) (system : Int) :
    (e.check maxPullupServerCnt system).last = e.inst.handled maxPullupServerCnt system := by
  unfold check
  split <;> simp [*]

theorem map_inst_checkAll (l : List Tracked) : ∀ k,
    (checkAll maxPullupServerCnt system k l).map Tracked.inst = l.map Tracked.inst := by
  induction l with
  | nil => exact fun k => rfl
  | cons e l ih =>
    intro k
    rw [checkAll, List.map_cons, List.map_cons, ih, Tracked.check_inst]

theorem getElem?_checkAll (l : List Tracked) : ∀ k i : Nat, (checkAll maxPullupServerCnt system k l)[i]? =
    l[i]?.map fun e : Tracked => e.check maxPullupServerCnt (system (k + i)) := by
  induction l with
  | nil => simp [checkAll]
  | cons e l ih =>
    intro k i
    rw [checkAll]
    cases i with
    | zero => rfl
    | succ i => rw [List.getElem?_cons_succ, List.getElem?_cons_succ, ih, Nat.add_right_comm, Nat.add_assoc]

theorem delInstances_eq (l : List Tracked) : ∀ k,
    AgentApplication.delInstances maxPullupServerCnt system k (l.map Tracked.inst) =
      ((checkAll maxPullupServerCnt system k l).filter Tracked.isGivenUp).map fun e => e.inst.instName := by
  induction l with
  | nil => exact fun k => rfl
  | cons e l ih =>
    intro k
    have hg : (e.check maxPullupServerCnt (system k)).isGivenUp =
        decide (e.inst.handled maxPullupServerCnt (system k) = .givenUp) := by
      rw [Tracked.isGivenUp, Tracked.check_last]
    rw [List.map_cons, checkAll, AgentApplication.delInstances, List.filter_cons, hg]
    unfold Instance.handled
    split
    · exact ih (k + 1)
    · split
      · exact ih (k + 1)
      · split
        · simp [ih]
        · exact ih (k + 1)

theorem map_inst_tick {α : Type} (s : AgentApplication α) {l : List Tracked} (h : l.map Tracked.inst = s.agentData) :
    (tick maxPullupServerCnt l system).map Tracked.inst = (s.checkAlive maxPullupServerCnt system).agentData := by
  have hfold : ∀ (names : List String) (l : List Tracked) (s : AgentApplication α), l.map Tracked.inst = s.agentData →
      (EraseFirst.eraseKeys (fun e => e.inst.instName) l names).map Tracked.inst =
        (names.foldl AgentApplication.delInstance s).agentData := by
    intro names
    induction names with
    | nil => exact fun l s h => h
    | cons name names ih =>
      intro l s h
      apply ih _ (s.delInstance name)
      unfold AgentApplication.delInstance
      rw [← h, List.eraseP_map]
      rfl
  unfold tick AgentApplication.checkAlive
  rw [← h, delInstances_eq]
  exact hfold _ _ s ((map_inst_checkAll l 0).trans h)

theorem mem_checkAll {l : List Tracked} {e : Tracked} : e ∈ checkAll maxPullupServerCnt system 0 l ↔
    ∃ (i : Nat) (e₀ : Tracked), l[i]? = some e₀ ∧ e₀.check maxPullupServerCnt (system i) = e := by
  simp only [List.mem_iff_getElem?, getElem?_checkAll, Option.map_eq_some_iff, Nat.zero_add]

end

/-- A tick after which nobody has been restarted more than once too often, those given up are gone, those alive have
the count 0, and the check of one has nothing to do with the others. -/
structure Bounded (maxPullupServerCnt : Nat) (l : List Tracked) (system : Nat → Int) : Prop where
  restarts : ∀ e ∈ tick maxPullupServerCnt l system, e.restarts ≤ maxPullupServerCnt + 1
  removed : ∀ e ∈ tick maxPullupServerCnt l system, e.last ≠ .givenUp
  reset : ∀ e ∈ tick maxPullupServerCnt l system, e.last = .alive → e.inst.checkCnt = 0
  others : ∀ (i : Nat) (ret : Int) (j : Nat), j ≠ i →
    (checkAll maxPullupServerCnt (Function.update system i ret) 0 l)[j]? =
      (checkAll maxPullupServerCnt system 0 l)[j]?

/-- No check succeeds while the count in the table is not 0, none that is not given up fails once more than it may, and
with an instance that is given up go all of its name before it. -/
structure Sparing (maxPullupServerCnt : Nat) (l : List Tracked) (system : Nat → Int) : Prop where
  alive : ∀ (i : Nat) (e : Tracked), l[i]? = some e → e.inst.handled maxPullupServerCnt (system i) = .alive →
    e.inst.checkCnt = 0
  failing : ∀ (i : Nat) (e : Tracked), l[i]? = some e → e.inst.handled maxPullupServerCnt (system i) = .pulledUp →
    e.fails ≤ maxPullupServerCnt
  first : (checkAll maxPullupServerCnt system 0 l).Pairwise fun a b =>
    a.inst.instName = b.inst.instName → b.isGivenUp = true → a.isGivenUp = true

/-- So far every failed check has been followed by a restart. -/
structure Restarted (maxPullupServerCnt : Nat) (l : List Tracked) : Prop where
  restarts : ∀ e ∈ l, e.restarts = e.fails
  bound : ∀ e ∈ l, e.restarts ≤ maxPullupServerCnt + 1

section
variable {maxPullupServerCnt : Nat} {system : Nat → Int} {l : List Tracked}

theorem restarted_start (agentData : List Instance) : Restarted maxPullupServerCnt (start agentData) := by
  unfold start
  constructor <;> simp

theorem mem_tick {e : Tracked} (he : e ∈ tick maxPullupServerCnt l system) :
    ∃ (i : Nat) (e₀ : Tracked), l[i]? = some e₀ ∧ e₀.check maxPullupServerCnt (system i) = e :=
  mem_checkAll.mp ((EraseFirst.eraseKeys_sublist _ _).subset he)

theorem removed_iff : (∀ e ∈ tick maxPullupServerCnt l system, e.last ≠ .givenUp) ↔
    (checkAll maxPullupServerCnt system 0 l).Pairwise fun a b =>
      a.inst.instName = b.inst.instName → b.isGivenUp = true → a.isGivenUp = true := by
  rw [← EraseFirst.eraseKeys_iff]
  simp only [tick, Tracked.isGivenUp, decide_eq_false_iff_not, ne_eq]

theorem mem_tick_of_removed (h : ∀ e ∈ tick maxPullupServerCnt l system, e.last ≠ .givenUp) {i : Nat} {e : Tracked}
    (hi : l[i]? = some e) (hg : e.inst.handled maxPullupServerCnt (system i) ≠ .givenUp) :
    e.check maxPullupServerCnt (system i) ∈ tick maxPullupServerCnt l system := by
  apply EraseFirst.mem_eraseKeys
  · simpa [tick, Tracked.isGivenUp] using h
  · exact mem_checkAll.mpr ⟨i, e, hi, rfl⟩
  · simpa [Tracked.isGivenUp] using hg

theorem others_checkAll (i : Nat) (ret : Int) (j : Nat) (hj : j ≠ i) :
    (checkAll maxPullupServerCnt (Function.update system i ret) 0 l)[j]? =
      (checkAll maxPullupServerCnt system 0 l)[j]? := by
  rw [getElem?_checkAll, getElem?_checkAll, Nat.zero_add, Function.update_of_ne hj]

theorem restarts_check (e : Tracked) (ret : Int) (h : e.restarts = e.fails)
    (hg : e.inst.handled maxPullupServerCnt ret ≠ .givenUp) :
    (e.check maxPullupServerCnt ret).restarts = (e.check maxPullupServerCnt ret).fails := by
  unfold Tracked.check
  cases hh : e.inst.handled maxPullupServerCnt ret with
  | skipped => exact h
  | alive => rfl
  | givenUp => exact absurd hh hg
  | pulledUp => exact congrArg (· + 1) h

theorem bounded_iff (hr : Restarted maxPullupServerCnt l) :
    Bounded maxPullupServerCnt l system ↔ Sparing maxPullupServerCnt l system := by
  constructor
  · intro h
    refine ⟨fun i e hi hh => ?_, fun i e hi hh => ?_, removed_iff.mp h.removed⟩
    · have hm := mem_tick_of_removed h.removed hi (by rw [hh]; decide)
      have hc := h.reset _ hm (by rw [Tracked.check_last, hh])
      rwa [Tracked.check_inst] at hc
    · have hm := mem_tick_of_removed h.removed hi (by rw [hh]; decide)
      have hb := h.restarts _ hm
      have he := hr.restarts e (List.mem_of_getElem? hi)
      simp only [Tracked.check, hh] at hb
      omega
  · intro h
    have hrem := removed_iff.mpr h.first
    refine ⟨fun e he => ?_, hrem, fun e he ha => ?_, others_checkAll⟩
    · obtain ⟨i, e₀, hi, rfl⟩ := mem_tick he
      have hb := hr.bound e₀ (List.mem_of_getElem? hi)
      have heq := hr.restarts e₀ (List.mem_of_getElem? hi)
      unfold Tracked.check
      cases hh : e₀.inst.handled maxPullupServerCnt (system i) with
      | skipped => exact hb
      | alive => exact Nat.zero_le _
      | givenUp => exact hb
      | pulledUp =>
        have hf := h.failing i e₀ hi hh
        show e₀.restarts + 1 ≤ maxPullupServerCnt + 1
        omega
    · obtain ⟨i, e₀, hi, rfl⟩ := mem_tick he
      rw [Tracked.check_last] at ha
      rw [Tracked.check_inst]
      exact h.alive i e₀ hi ha

theorem restarted_tick (hr : Restarted maxPullupServerCnt l) (h : Bounded maxPullupServerCnt l system) :
    Restarted maxPullupServerCnt (tick maxPullupServerCnt l system) := by
  refine ⟨fun e he => ?_, h.restarts⟩
  have hg := h.removed e he
  obtain ⟨i, e₀, hi, rfl⟩ := mem_tick he
  rw [Tracked.check_last] at hg
  exact restarts_check e₀ (system i) (hr.restarts e₀ (List.mem_of_getElem? hi)) hg

end

/-- The restarts are bounded, and the counts those of the checks, in exactly the runs that spare them. -/
theorem checkAlive_bounded_iff (maxPullupServerCnt : Nat) (agentData : List Instance) (t : List (Nat → Int)) :
    (∀ t₁ system, t₁ ++ [system] <+: t →
      Bounded maxPullupServerCnt (t₁.foldl (tick maxPullupServerCnt) (start agentData)) system) ↔
      ∀ t₁ system, t₁ ++ [system] <+: t →
        Sparing maxPullupServerCnt (t₁.foldl (tick maxPullupServerCnt) (start agentData)) system :=
  Runs.always_foldl_iff (P := Restarted maxPullupServerCnt) (restarted_start agentData)
    (fun _ _ hr => bounded_iff hr) (fun _ _ hr h => restarted_tick hr h) t

def dbsvr : Instance :=
  { instName := "dbsvr.1", startCmd := "./start", stopCmd := "./stop", cleanCmd := "", checkCmd := "./check"
    checkCnt := 0 }

/-- An instance whose check fails is started again at every tick, where none may be twice. -/
theorem dbsvr_restarted : ¬ ∀ (t₁ : List (Nat → Int)) (system : Nat → Int),
    t₁ ++ [system] <+: [fun _ => 1, fun _ => 1] → Bounded 0 (t₁.foldl (tick 0) (start [dbsvr])) system := by
  intro h
  have hb := (h [fun _ => 1] (fun _ => 1) List.prefix_rfl).restarts
  revert hb
  decide

end GlobalServer.Agent

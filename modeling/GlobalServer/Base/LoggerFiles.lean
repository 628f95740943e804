import GlobalServer.Base.LoggerRuns
import GlobalServer.Base.LogFileSound

/-!
# From the lines to the files

`logger` and its `logfile` together: what `dump` writes is a call of `write`,
with the clock as it stands then and what `fwrite` returns to its loop.
-/

namespace GlobalServer.LoggerFiles

open Logger

structure System where
  logger : Logger.State
  file : LogFile.State

inductive Op where
  | log (data : Line)
  /-- The next step of `dump`, at the time `now`; `fwrite` returns `wsizes` if it is the one that writes. -/
  | dump (now : Int) (wsizes : List Nat)

section
variable (localtime : Int → LogFile.Day)

/-- `setfilename` -/
def start (node_cnt : Nat) (filename pid : List UInt8) (rollsize : Nat) (withpid : Bool) (now : Int) : System :=
  { logger := Logger.start node_cnt, file := .construct localtime filename pid rollsize withpid now }

def System.dump (s : System) (now : Int) (wsizes : List Nat) : System :=
  { logger := s.logger.dump
    file :=
      if s.logger.pos = .write then
        (s.file.write localtime now (s.logger.node s.logger.consumer).buffer.flatten wsizes).1
      else s.file }

def System.step (s : System) : Op → System
  | .log data => { s with logger := s.logger.log data }
  | .dump now wsizes => s.dump localtime now wsizes

def System.run (s : System) (ops : List Op) : System := ops.foldl (System.step localtime) s

end

/-- What the threads and `dump` do in the logger. -/
def Op.logger : Op → Logger.Op
  | .log data => .log data
  | .dump _ _ => .dump

/-- What `fwrite` may return, step by step. -/
def returned (ops : List Op) : List (List Nat) := ops.filterMap fun
  | .log _ => none
  | .dump _ wsizes => some wsizes

/-- The lines of a buffer and what `fwrite` has returned for them. -/
structure Group where
  lines : List Line
  wsizes : List Nat

/-- What has come to the file of it. -/
def Group.bytes (g : Group) : List UInt8 := (LogFile.fwriteAll g.lines.flatten g.lines.flatten.length g.wsizes).1

variable {localtime : Int → LogFile.Day}

theorem run_logger (s : System) (ops : List Op) :
    (s.run localtime ops).logger = Logger.run s.logger (ops.map Op.logger) := by
  induction ops generalizing s with
  | nil => rfl
  | cons op ops ih =>
    cases op with
    | log data => exact ih { s with logger := s.logger.log data }
    | dump now wsizes => exact ih (s.dump localtime now wsizes)

theorem lines_logger (ops : List Op) {data : Line} (h : data ∈ lines (ops.map Op.logger)) : .log data ∈ ops := by
  obtain ⟨op, hop, he⟩ := List.mem_filterMap.mp h
  obtain ⟨op', hop', rfl⟩ := List.mem_map.mp hop
  cases op' with
  | log data' =>
    obtain rfl := Option.some.inj he
    exact hop'
  | dump now wsizes => cases he

theorem dump_output (s : Logger.State) :
    s.dump.output = s.output ++ if s.pos = .write then (s.node s.consumer).buffer else [] := by
  unfold State.dump
  cases hp : s.pos with
  | loop => simp
  | enter => dsimp only; split <;> simp [State.take]
  | wait =>
    dsimp only
    split
    · split <;> simp [State.take, State.setNode]
    · simp [State.take]
  | write => simp
  | clear => simp [State.release, State.setNode]
  | done => simp

/-- The files have what `dump` has written, a record for each buffer. -/
structure Filed (localtime : Int → LogFile.Day) (rollsize : Nat) (s : System) (times : List Int) (groups : List Group) :
    Prop where
  inv : LogFile.Inv localtime s.file times
  clock : LogFile.Clock localtime s.file
  rollsize : s.file.rollsize = rollsize
  bytes : (LogFile.written s.file).map (·.bytes) = groups.map Group.bytes
  lines : groups.flatMap (·.lines) = s.logger.output

section
variable {rollsize : Nat} {s : System} {times : List Int} {groups : List Group}

theorem Filed.dump (h : Filed localtime rollsize s times groups) {now : Int} (hnow : 0 < now) (wsizes : List Nat) :
    ∃ times' more, Filed localtime rollsize (s.dump localtime now wsizes) times' (groups ++ more) ∧
      (more.map (·.wsizes)).Sublist [wsizes] := by
  have hd := dump_output s.logger
  by_cases hp : s.logger.pos = .write
  · obtain ⟨hinv, hclock, hsame, hw⟩ :=
      h.inv.write h.clock { now, data := (s.logger.node s.logger.consumer).buffer.flatten, wsizes } hnow
    have hfile : (s.dump localtime now wsizes).file = _ := if_pos hp
    rw [if_pos hp] at hd
    refine ⟨_, [⟨(s.logger.node s.logger.consumer).buffer, wsizes⟩],
      ⟨hfile ▸ hinv, hfile ▸ hclock, hfile ▸ hsame.rollsize.trans h.rollsize, ?_, ?_⟩, .refl _⟩
    · rw [hfile, hw, List.map_append, h.bytes, List.map_append]
      rfl
    · rw [List.flatMap_append, h.lines, List.flatMap_singleton]
      exact hd.symm
  · have hfile : (s.dump localtime now wsizes).file = s.file := if_neg hp
    rw [if_neg hp, List.append_nil] at hd
    refine ⟨times, [], ⟨hfile ▸ h.inv, hfile ▸ h.clock, hfile ▸ h.rollsize, ?_, ?_⟩, List.nil_sublist _⟩
    · rw [hfile, List.append_nil]
      exact h.bytes
    · rw [List.append_nil]
      exact h.lines.trans hd.symm

theorem Filed.run (h : Filed localtime rollsize s times groups) {ops : List Op}
    (hnow : ∀ now wsizes, .dump now wsizes ∈ ops → 0 < now) :
    ∃ times' more, Filed localtime rollsize (s.run localtime ops) times' (groups ++ more) ∧
      (more.map (·.wsizes)).Sublist (returned ops) := by
  induction ops generalizing s times groups with
  | nil => exact ⟨times, [], by rwa [List.append_nil], List.nil_sublist _⟩
  | cons op ops ih =>
    have hrest : ∀ now wsizes, .dump now wsizes ∈ ops → 0 < now :=
      fun now wsizes hm => hnow now wsizes (List.mem_cons_of_mem _ hm)
    cases op with
    | log data =>
      have h' : Filed localtime rollsize { s with logger := s.logger.log data } times groups :=
        ⟨h.inv, h.clock, h.rollsize, h.bytes, h.lines.trans (State.log_frame s.logger data).2.2.1.symm⟩
      exact ih h' hrest
    | dump now wsizes =>
      obtain ⟨times₁, more₁, h₁, hs₁⟩ := h.dump (hnow now wsizes List.mem_cons_self) wsizes
      obtain ⟨times₂, more₂, h₂, hs₂⟩ := ih h₁ hrest
      rw [List.append_assoc] at h₂
      refine ⟨times₂, more₁ ++ more₂, h₂, ?_⟩
      rw [List.map_append]
      exact hs₁.append hs₂

end

/-- Over any steps of the threads and of `dump`, there is a record in the files for each buffer written, in order. It has
what the loop of `write` makes of the lines of the buffer, the lines themselves where `fwrite` is not short, and these are
the accepted lines from the first on. Each record is in one file and of the day of that file. -/
theorem files_hold_lines (localtime : Int → LogFile.Day) {n : Nat} (hn : 2 ≤ n) (filename pid : List UInt8) (rollsize : Nat)
    (withpid : Bool) (begin : Int) (ops : List Op) (hlen : ∀ data, .log data ∈ ops → data.length < bufferSize)
    (hnow : ∀ now wsizes, .dump now wsizes ∈ ops → 0 < now) :
    ∃ s, (start localtime n filename pid rollsize withpid begin).run localtime ops = s ∧
      (∃ groups : List Group, (LogFile.written s.file).map (·.bytes) = groups.map Group.bytes ∧
        (∀ g ∈ groups, LogFile.Whole g.lines.flatten g.wsizes → g.bytes = g.lines.flatten) ∧
        (groups.map (·.wsizes)).Sublist (returned ops) ∧ groups.flatMap (·.lines) <+: s.logger.accepted) ∧
      s.logger.accepted.Sublist (lines (ops.map Op.logger)) ∧
      ∀ seg ∈ s.file.files, LogFile.Sized rollsize seg.records ∧
        ∀ record ∈ seg.records, localtime record.now = localtime seg.rolltime := by
  have h0 : Filed localtime rollsize (start localtime n filename pid rollsize withpid begin) [begin] [] :=
    ⟨.construct filename pid rollsize withpid begin, .inl rfl, rfl, rfl, rfl⟩
  obtain ⟨times, groups, h, hw⟩ := h0.run hnow
  rw [List.nil_append] at h
  have hops : ∀ data ∈ lines (ops.map Op.logger), data.length < bufferSize :=
    fun data hd => hlen data (lines_logger ops hd)
  obtain ⟨hs, acc, hacc, hsub, -⟩ := run_sound hops ⟨_, _, _, State.view_start hn⟩
  refine ⟨_, rfl, ⟨groups, h.bytes, ?_, hw, ?_⟩, ?_, fun seg hs => ⟨h.rollsize ▸ h.inv.sized seg hs, h.inv.day seg hs⟩⟩
  · intro g _ hwhole
    rw [Group.bytes, LogFile.fwriteAll_whole hwhole]
  · rw [h.lines, run_logger]
    obtain ⟨_, _, _, hv⟩ := hs
    exact hv.output_prefix
  · rw [run_logger]
    exact (show (Logger.run (Logger.start n) _).accepted = acc from hacc) ▸ hsub

/-- Two buffers are written, the first with `fwrite` returning 1 each time. -/
theorem files_hold_lines_short :
    let localtime : Int → LogFile.Day := fun _ => ⟨2018, 1, 1⟩
    let ops : List Op := [.log [104, 10], .dump 2 [], .dump 2 [], .dump 2 [], .dump 2 [1, 1], .dump 3 [], .log [105, 10],
      .dump 3 [], .dump 3 [], .dump 3 [], .dump 4 [2]]
    let s := (start localtime 2 [] [] 1 false 1).run localtime ops
    (LogFile.written s.file).map (·.bytes) = [[104, 104], [105, 10]] ∧
      (∃ groups : List Group, [[104, 104], [105, 10]] = groups.map Group.bytes ∧
        (∀ g ∈ groups, LogFile.Whole g.lines.flatten g.wsizes → g.bytes = g.lines.flatten) ∧
        (groups.map (·.wsizes)).Sublist (returned ops) ∧ groups.flatMap (·.lines) <+: s.logger.accepted) ∧
      s.logger.accepted.Sublist (lines (ops.map Op.logger)) ∧
      ∀ seg ∈ s.file.files, LogFile.Sized 1 seg.records ∧
        ∀ record ∈ seg.records, localtime record.now = localtime seg.rolltime := by
  obtain ⟨_, rfl, ⟨groups, h⟩, hrest⟩ := files_hold_lines (fun _ => ⟨2018, 1, 1⟩) (Nat.le_refl 2) [] [] 1 false 1
    [.log [104, 10], .dump 2 [], .dump 2 [], .dump 2 [], .dump 2 [1, 1], .dump 3 [], .log [105, 10],
      .dump 3 [], .dump 3 [], .dump 3 [], .dump 4 [2]] (by simp [bufferSize])
    (by intro now wsizes h; simp at h; omega)
  have hw : (LogFile.written ((start (fun _ => ⟨2018, 1, 1⟩) 2 [] [] 1 false 1).run (fun _ => ⟨2018, 1, 1⟩)
      [.log [104, 10], .dump 2 [], .dump 2 [], .dump 2 [], .dump 2 [1, 1], .dump 3 [], .log [105, 10],
        .dump 3 [], .dump 3 [], .dump 3 [], .dump 4 [2]]).file).map (·.bytes) = [[104, 104], [105, 10]] := by
    decide +kernel
  exact ⟨hw, ⟨groups, hw ▸ h⟩, hrest⟩

end GlobalServer.LoggerFiles

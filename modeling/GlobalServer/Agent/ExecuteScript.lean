import GlobalServer.Base.Util
import GlobalServer.Lib.Results

/-!
# The scripts of server_agent

`ExecuteScript` runs each configured script when its `next_check_time` has come
and stores the next one. A script for a certain time of the day is due at that
time; the next one is computed from the UTC day as if it were the local one.
-/

namespace GlobalServer.Agent

/-- `config::ScriptType` -/
inductive ScriptType where
  | certainTime
  | periodTime
  deriving DecidableEq

/-- `config::ScriptInfo` -/
structure ScriptInfo where
  type : ScriptType
  script : String
  intervalSeconds : Nat
  dayCertainTime : String
  nextCheckTime : Option Nat
  scriptDir : String
  deriving DecidableEq

/-- `(unsigned int)next_time` -/
def uint (nextTime : Int) : Nat := (nextTime % 2 ^ 32).toNat

section
variable (t : Int) (zone : TimeZone)

/-- `next_time` of `ExecuteScript`; `none` where it is not found. -/
def nextTime (now : Nat) (item : ScriptInfo) : Option Int :=
  match item.type with
  | .certainTime =>
    let nextTime := certainTimesOfDay t zone now item.dayCertainTime
    some (if nextTime ≤ now then nextTime + 24 * 3600 else nextTime)
  | .periodTime => closestTimeOfDay t zone now item.intervalSeconds

/-- One turn of the loop, with whether the script was run. -/
def executeItem (now : Nat) (item : ScriptInfo) : Option (ScriptInfo × Bool) :=
  (nextTime t zone now item).map fun next =>
    let checkTime := item.nextCheckTime.getD (uint next)
    if now < checkTime then ({ item with nextCheckTime := some checkTime }, false)
    else ({ item with nextCheckTime := some (uint next) }, true)

def executeScript (now : Nat) (items : List ScriptInfo) : Option (List (ScriptInfo × Bool)) :=
  items.mapM (executeItem t zone now)

/-- What a tick did with a script. -/
structure Tick where
  now : Nat
  before : ScriptInfo
  after : ScriptInfo
  ran : Bool

/-- What the ticks at the given times do with the script at `i`. -/
def scriptTicks (i : Nat) : List ScriptInfo → List Nat → Option (List Tick)
  | _, [] => some []
  | items, now :: times =>
    (executeScript t zone now items).bind fun r =>
      (scriptTicks i (r.map Prod.fst) times).map fun ticks =>
        match items[i]?, r[i]? with
        | some before, some (after, ran) => { now, before, after, ran } :: ticks
        | _, _ => ticks

end

/-- The tick has stored a `next_check_time`. -/
def Tick.Stores (k : Tick) : Prop := k.before.nextCheckTime = none ∨ k.ran = true

/-- What it has stored is later than now, and at most a day. -/
def Tick.InDay (k : Tick) : Prop := ∃ next, k.after.nextCheckTime = some next ∧ k.now < next ∧ next ≤ k.now + 86400

/-- The time of the day, of the UTC day taken for the local one, is less than a day back and at most one ahead, and
the next such time is one of 32 bits. -/
def InReach (zone : TimeZone) (h : Hms) (now : Nat) : Prop :=
  let ahead : Int := h.seconds - zone.offset - now % 86400
  ahead ≤ 86400 ∧ -86400 < ahead ∧ now + (if ahead ≤ 0 then ahead + 86400 else ahead) < 2 ^ 32

/-- The day, from one time `h` to the next. -/
def day (zone : TimeZone) (h : Hms) (now : Nat) : Int := (now + zone.offset - h.seconds) / 86400

/-! ## One tick -/

section
variable {t : Int} {zone : TimeZone} {h : Hms} {now : Nat} {item : ScriptInfo}

theorem nextTime_certain (ht : item.type = .certainTime) (hd : item.dayCertainTime = h.text) {ahead : Int}
    (ha : ahead = h.seconds - zone.offset - now % 86400) :
    nextTime t zone now item = some (now + if ahead ≤ 0 then ahead + 86400 else ahead) := by
  unfold nextTime
  rw [ht, hd]
  simp only [h.certainTimesOfDay_text]
  congr 1
  by_cases hle : ahead ≤ 0
  · rw [if_pos hle, if_pos (by omega)]
    omega
  · rw [if_neg hle, if_neg (by omega)]
    omega

theorem uint_in_day_iff {ahead : Int} (ha : ahead = h.seconds - zone.offset - now % 86400) :
    (now < uint (now + if ahead ≤ 0 then ahead + 86400 else ahead) ∧
      uint (now + if ahead ≤ 0 then ahead + 86400 else ahead) ≤ now + 86400) ↔ InReach zone h now := by
  have h1 := zone.lower
  have h2 := zone.upper
  have h3 := h.seconds_lt
  unfold InReach uint
  rw [← ha]
  by_cases hle : ahead ≤ 0
  · simp only [if_pos hle]
    omega
  · simp only [if_neg hle]
    omega

theorem day_next {ahead : Int} (ha : ahead = h.seconds - zone.offset - now % 86400) (hr : InReach zone h now) :
    day zone h (uint (now + if ahead ≤ 0 then ahead + 86400 else ahead)) = day zone h now + 1 := by
  unfold InReach at hr
  rw [← ha] at hr
  unfold day uint
  by_cases hle : ahead ≤ 0
  · simp only [if_pos hle] at hr ⊢
    omega
  · simp only [if_neg hle] at hr ⊢
    omega

theorem executeItem_certain (t : Int) (zone : TimeZone) (now : Nat) (ht : item.type = .certainTime)
    (hd : item.dayCertainTime = h.text) : ∃ next, ((now < next ∧ next ≤ now + 86400) ↔ InReach zone h now) ∧
      (InReach zone h now → day zone h next = day zone h now + 1) ∧
      executeItem t zone now item = some (if now < item.nextCheckTime.getD next
        then ({ item with nextCheckTime := some (item.nextCheckTime.getD next) }, false)
        else ({ item with nextCheckTime := some next }, true)) := by
  refine ⟨_, uint_in_day_iff rfl, day_next rfl, ?_⟩
  unfold executeItem
  rw [nextTime_certain ht hd rfl]
  rfl

end

/-! ## The ticks of one script -/

section
variable {t : Int} {zone : TimeZone} {h : Hms}

/-- What a list of ticks does with a script on its own. -/
inductive Ticks (t : Int) (zone : TimeZone) : ScriptInfo → List Tick → Prop
  | nil {item} : Ticks t zone item []
  | cons {item now after ran ticks} (he : executeItem t zone now item = some (after, ran))
      (hr : Ticks t zone after ticks) : Ticks t zone item ({ now, before := item, after, ran } :: ticks)

/-- The scripts do not touch each other. -/
theorem ticks_of_scriptTicks {i : Nat} (times : List Nat) : ∀ {items : List ScriptInfo} {item : ScriptInfo}
    {ticks : List Tick}, items[i]? = some item → scriptTicks t zone i items times = some ticks →
      Ticks t zone item ticks := by
  induction times with
  | nil =>
    intro items item ticks hi h
    cases h
    exact .nil
  | cons now times ih =>
    intro items item ticks hi h
    obtain ⟨r, hr, h⟩ := Option.bind_eq_some_iff.mp h
    obtain ⟨later, hl, he⟩ := Option.map_eq_some_iff.mp h
    obtain ⟨x, hx, hex⟩ := Option.mapM_getElem? hr i item hi
    rw [hi, hx] at he
    dsimp only at he
    rw [← he]
    exact .cons hex (ih (by rw [List.getElem?_map, hx]; rfl) hl)

theorem executeItem_keeps {now : Nat} {item after : ScriptInfo} {ran : Bool}
    (he : executeItem t zone now item = some (after, ran)) :
    after.type = item.type ∧ after.dayCertainTime = item.dayCertainTime := by
  obtain ⟨next, -, he⟩ := Option.map_eq_some_iff.mp he
  dsimp only at he
  split at he
  · cases he
    exact ⟨rfl, rfl⟩
  · cases he
    exact ⟨rfl, rfl⟩

theorem executeItem_stores {now : Nat} {item after : ScriptInfo} {ran : Bool} (ht : item.type = .certainTime)
    (hd : item.dayCertainTime = h.text) (he : executeItem t zone now item = some (after, ran))
    (hs : item.nextCheckTime = none ∨ ran = true) : ∃ next, after.nextCheckTime = some next ∧
      ((now < next ∧ next ≤ now + 86400) ↔ InReach zone h now) ∧
      (InReach zone h now → day zone h next = day zone h now + 1) := by
  obtain ⟨next, hnext, hday, hex⟩ := executeItem_certain t zone now ht hd
  rw [hex] at he
  refine ⟨next, ?_, hnext, hday⟩
  split at he
  · cases he
    rw [hs.resolve_right (by decide)]
    rfl
  · cases he
    rfl

theorem executeItem_due {now n : Nat} {item after : ScriptInfo} {ran : Bool} (hn : item.nextCheckTime = some n)
    (he : executeItem t zone now item = some (after, ran)) :
    if ran then n ≤ now else after.nextCheckTime = some n := by
  obtain ⟨next, -, he⟩ := Option.map_eq_some_iff.mp he
  simp only [hn, Option.getD_some] at he
  by_cases hlt : now < n
  · rw [if_pos hlt] at he
    cases he
    rfl
  · rw [if_neg hlt] at he
    cases he
    exact Nat.le_of_not_lt hlt

theorem inDay_iff {item : ScriptInfo} {ticks : List Tick} (hr : Ticks t zone item ticks)
    (ht : item.type = .certainTime) (hd : item.dayCertainTime = h.text) :
    ∀ k ∈ ticks, k.Stores → (k.InDay ↔ InReach zone h k.now) := by
  induction hr with
  | nil => simp
  | cons he _ ih =>
    obtain ⟨ht', hd'⟩ := executeItem_keeps he
    rw [List.forall_mem_cons]
    refine ⟨fun hs => ?_, ih (ht'.trans ht) (hd'.trans hd)⟩
    obtain ⟨next, hn, hiff, -⟩ := executeItem_stores ht hd he hs
    rw [← hiff]
    unfold Tick.InDay
    simp [hn]

theorem day_mono {a b : Nat} (hab : a ≤ b) : day zone h a ≤ day zone h b := by
  unfold day
  omega

/-- Until the stored time is reached the script is not run: all later runs are on later days. -/
theorem day_lt_of_ran {item : ScriptInfo} {ticks : List Tick} (hr : Ticks t zone item ticks)
    (ht : item.type = .certainTime) (hd : item.dayCertainTime = h.text)
    (hreach : ∀ k ∈ ticks, k.Stores → InReach zone h k.now) :
    ∀ n d, item.nextCheckTime = some n → d < day zone h n → ∀ k ∈ ticks, k.ran = true → d < day zone h k.now := by
  induction hr with
  | nil => simp
  | @cons item now after ran ticks he _ ih =>
    intro n d hn hlt
    obtain ⟨ht', hd'⟩ := executeItem_keeps he
    obtain ⟨hfirst, hlater⟩ := List.forall_mem_cons.mp hreach
    have hdue := executeItem_due hn he
    rw [List.forall_mem_cons]
    cases ran with
    | false => exact ⟨nofun, ih (ht'.trans ht) (hd'.trans hd) hlater n d hdue hlt⟩
    | true =>
      have hnow : d < day zone h now := Int.lt_of_lt_of_le hlt (day_mono hdue)
      obtain ⟨next, hnext, -, hday⟩ := executeItem_stores ht hd he (.inr rfl)
      have hd1 := hday (hfirst (.inr rfl))
      exact ⟨fun _ => hnow, ih (ht'.trans ht) (hd'.trans hd) hlater next d hnext (by omega)⟩

theorem ran_pairwise {item : ScriptInfo} {ticks : List Tick} (hr : Ticks t zone item ticks)
    (ht : item.type = .certainTime) (hd : item.dayCertainTime = h.text)
    (hreach : ∀ k ∈ ticks, k.Stores → InReach zone h k.now) :
    (ticks.filter Tick.ran).Pairwise fun a b => day zone h a.now < day zone h b.now := by
  induction hr with
  | nil => exact .nil
  | @cons item now after ran ticks he hr ih =>
    obtain ⟨ht', hd'⟩ := executeItem_keeps he
    obtain ⟨hfirst, hlater⟩ := List.forall_mem_cons.mp hreach
    have hrest := ih (ht'.trans ht) (hd'.trans hd) hlater
    cases ran with
    | false => exact hrest
    | true =>
      obtain ⟨next, hnext, -, hday⟩ := executeItem_stores ht hd he (.inr rfl)
      have hd1 := hday (hfirst (.inr rfl))
      apply List.Pairwise.cons _ hrest
      intro k hk
      obtain ⟨hk, hran⟩ := List.mem_filter.mp hk
      exact day_lt_of_ran hr (ht'.trans ht) (hd'.trans hd) hlater next (day zone h now) hnext (by omega) k hk hran

end

/-- The times that are stored for a script for a certain time are within the next day, so that it runs once a day, in
exactly the runs in which they are in reach. -/
theorem scripts_in_day_iff (t : Int) (zone : TimeZone) (h : Hms) (i : Nat) (items : List ScriptInfo) (times : List Nat)
    {item : ScriptInfo} {ticks : List Tick} (hi : items[i]? = some item) (ht : item.type = .certainTime)
    (hd : item.dayCertainTime = h.text) (hk : scriptTicks t zone i items times = some ticks) :
    ((∀ k ∈ ticks, k.Stores → k.InDay) ∧
      (ticks.filter Tick.ran).Pairwise fun a b => day zone h a.now < day zone h b.now) ↔
      ∀ k ∈ ticks, k.Stores → InReach zone h k.now := by
  have hr := ticks_of_scriptTicks times hi hk
  have hiff := inDay_iff hr ht hd
  constructor
  · intro hin k hm hs
    exact (hiff k hm hs).mp (hin.1 k hm hs)
  · intro hreach
    exact ⟨fun k hm hs => (hiff k hm hs).mpr (hreach k hm hs), ran_pairwise hr ht hd hreach⟩

def script (h : Hms) : ScriptInfo :=
  { type := .certainTime, script := "./backup.sh", intervalSeconds := 0, dayCertainTime := h.text, nextCheckTime := none
    scriptDir := "." }

theorem scriptTicks_script (zone : TimeZone) (h : Hms) (now next : Nat) (hn : ∀ ahead : Int,
    ahead = h.seconds - zone.offset - now % 86400 → uint (now + if ahead ≤ 0 then ahead + 86400 else ahead) = next) :
    scriptTicks 0 zone 0 [script h] [now] = some [{
      now, before := script h, after := { script h with nextCheckTime := some next }, ran := decide (next ≤ now) }] := by
  have he : executeItem 0 zone now (script h) =
      some ({ script h with nextCheckTime := some next }, decide (next ≤ now)) := by
    unfold executeItem
    rw [nextTime_certain (h := h) rfl rfl rfl, Option.map_some, hn _ rfl]
    have hnone : (script h).nextCheckTime.getD next = next := rfl
    simp only [hnone]
    by_cases hlt : now < next
    · simp [hlt]
    · simp [hlt, Nat.le_of_not_lt hlt]
  simp [scriptTicks, executeScript, he]

def noon : Hms :=
  { hour := ['1', '2'], minute := ['0', '0'], second := ['0', '0'], digits := by simp [Char.isDigit], hour_lt := by decide
    minute_lt := by decide, second_lt := by decide }

def midnight : Hms :=
  { hour := ['0', '0'], minute := ['0', '0'], second := ['0', '0'], digits := by simp [Char.isDigit], hour_lt := by decide
    minute_lt := by decide, second_lt := by decide }

theorem scripts_in_day_noon :
    let zone : TimeZone := { offset := 0, lower := by decide, upper := by decide }
    ∃ ticks, scriptTicks 0 zone 0 [script noon] [40000] = some ticks ∧ ∀ k ∈ ticks, k.Stores → k.InDay := by
  have hk := scriptTicks_script { offset := 0, lower := by decide, upper := by decide } noon 40000 43200
    (by rintro _ rfl; decide)
  refine ⟨_, hk, ((scripts_in_day_iff 0 _ noon 0 [script noon] [40000] rfl rfl rfl hk).mpr ?_).1⟩
  rintro k hm -
  rw [List.mem_singleton.mp hm]
  unfold InReach
  decide

/-- Where local time is eight hours ahead, a script for midnight is run by a tick at 23:00 UTC, and will be by the next
one. -/
theorem midnight_script_runs :
    let zone : TimeZone := { offset := 28800, lower := by decide, upper := by decide }
    ∃ ticks, scriptTicks 0 zone 0 [script midnight] [82800] = some ticks ∧ ¬ ∀ k ∈ ticks, k.Stores → k.InDay := by
  have hk := scriptTicks_script { offset := 28800, lower := by decide, upper := by decide } midnight 82800 57600
    (by rintro _ rfl; decide)
  refine ⟨_, hk, fun h => ?_⟩
  obtain ⟨next, hn, hlt, -⟩ := h _ List.mem_cons_self (.inl rfl)
  obtain rfl := Option.some.inj hn
  revert hlt
  decide

end GlobalServer.Agent

import GlobalServer.Base.LogFile
import Mathlib.Data.List.Basic
import Mathlib.Data.List.Chain

/-!
# What the files of the logger hold

Read in the order they were opened, the files hold what each call of `write`
wrote, one call after another and none cut between two files. A file holds one
day, and reaches the size to roll with its last record only. As long as no day
comes back, no two files have the same name.
-/

namespace GlobalServer.LogFile

open Decimal

/-- Everything that was written, in the order of the files. -/
def written (f : State) : List Record := f.files.reverse.flatMap (·.records)

/-- A day that is over is not seen again. -/
def NoReturn (localtime : Int → Day) (times : List Int) : Prop :=
  ∀ a b c, [a, b, c].Sublist times → localtime a = localtime c → localtime b = localtime a

/-- `a` was opened right after `c`. -/
def Follows (localtime : Int → Day) (a c : Segment) : Prop :=
  (localtime a.rolltime = localtime c.rolltime ∧ a.idx = c.idx + 1) ∨
    (localtime a.rolltime ≠ localtime c.rolltime ∧ a.idx = 1)

/-- A file was not full before its last record. -/
def Sized (rollsize : Nat) (records : List Record) : Prop :=
  ∀ init last, records = init ++ [last] → init = [] ∨ (init.flatMap (·.bytes)).length < rollsize

structure Inv (localtime : Int → Day) (f : State) (times : List Int) : Prop where
  head : ∃ seg files, f.files = seg :: files ∧ seg.rolltime = f.rolltime ∧ seg.idx = f.logidx ∧ seg.size = f.writesize
  day : ∀ seg ∈ f.files, ∀ record ∈ seg.records, localtime record.now = localtime seg.rolltime
  sized : ∀ seg ∈ f.files, Sized f.rollsize seg.records
  name : ∀ seg ∈ f.files, seg.name = logname (localtime seg.rolltime) f.pid f.filename seg.idx f.withpid
  chain : f.files.IsChain (Follows localtime)
  first : ∀ seg, f.files.getLast? = some seg → seg.idx = 1
  mem : ∀ seg ∈ f.files, seg.rolltime ∈ times
  before : ∀ seg ∈ f.files, localtime seg.rolltime = localtime f.rolltime ∨
    ∃ t, localtime t = localtime f.rolltime ∧ [seg.rolltime, t].Sublist times
  apart : NoReturn localtime times → f.files.Pairwise fun a c => localtime a.rolltime = localtime c.rolltime → c.idx < a.idx

/-- What never changes. -/
structure Same (f g : State) : Prop where
  filename : g.filename = f.filename
  pid : g.pid = f.pid
  withpid : g.withpid = f.withpid
  rollsize : g.rollsize = f.rollsize

theorem Same.refl (f : State) : Same f f := ⟨rfl, rfl, rfl, rfl⟩

theorem Same.trans {f g k : State} (h : Same f g) (h' : Same g k) : Same f k :=
  ⟨h'.filename.trans h.filename, h'.pid.trans h.pid, h'.withpid.trans h.withpid, h'.rollsize.trans h.rollsize⟩

/-- The day of the clock was looked at when it last went on. -/
def Clock (localtime : Int → Day) (f : State) : Prop :=
  f.lastctime = 0 ∨ localtime f.rolltime = localtime f.lastctime

section
variable {localtime : Int → Day} {f : State} {times : List Int}

theorem Inv.construct (filename pid : List UInt8) (rollsize : Nat) (withpid : Bool) (now : Int) :
    Inv localtime (State.construct localtime filename pid rollsize withpid now) [now] where
  head := ⟨_, _, rfl, rfl, rfl, rfl⟩
  day := by
    intro seg hs
    obtain rfl := List.mem_singleton.mp hs
    simp
  sized := by
    intro seg hs init last he
    obtain rfl := List.mem_singleton.mp hs
    simp at he
  name := by
    intro seg hs
    obtain rfl := List.mem_singleton.mp hs
    rfl
  chain := List.isChain_singleton _
  first := by
    intro seg hs
    obtain rfl := Option.some.inj hs
    rfl
  mem := by
    intro seg hs
    obtain rfl := List.mem_singleton.mp hs
    exact List.mem_singleton_self _
  before := by
    intro seg hs
    obtain rfl := List.mem_singleton.mp hs
    exact .inl rfl
  apart := fun _ => List.pairwise_singleton _ _

theorem NoReturn.of_append {now : Int} (h : NoReturn localtime (times ++ [now])) : NoReturn localtime times :=
  fun a b c hs => h a b c (hs.trans (List.sublist_append_left _ _))

theorem Inv.tick (h : Inv localtime f times) (now : Int) : Inv localtime f (times ++ [now]) :=
  { h with
    mem := fun seg hs => List.mem_append_left _ (h.mem seg hs)
    before := fun seg hs => (h.before seg hs).imp_right fun ⟨t, h1, h2⟩ => ⟨t, h1, h2.trans (List.sublist_append_left _ _)⟩
    apart := fun hno => h.apart hno.of_append }

/-- A new file, which comes after the present one as its day says, and whose number no file of that day has. -/
theorem Inv.roll (h : Inv localtime f times) {times' : List Int} (newday : Bool) (now : Int)
    (hnew : newday = true ↔ localtime f.rolltime ≠ localtime now) (hnow : now ∈ times')
    (hmem : ∀ t ∈ times, t ∈ times')
    (hbefore : ∀ seg ∈ f.files, localtime seg.rolltime = localtime now ∨
      ∃ t, localtime t = localtime now ∧ [seg.rolltime, t].Sublist times')
    (hapart : NoReturn localtime times' → NoReturn localtime times ∧
      (newday = true → ∀ seg ∈ f.files, localtime seg.rolltime ≠ localtime now)) :
    Inv localtime (f.rollFile localtime newday now) times' where
  head := ⟨_, _, rfl, rfl, rfl, rfl⟩
  day := by
    intro seg hs
    rcases List.mem_cons.mp hs with rfl | hs
    · simp
    · exact h.day seg hs
  sized := by
    intro seg hs
    rcases List.mem_cons.mp hs with rfl | hs
    · intro init last he
      simp at he
    · exact h.sized seg hs
  name := by
    intro seg hs
    rcases List.mem_cons.mp hs with rfl | hs
    · rfl
    · exact h.name seg hs
  chain := by
    obtain ⟨seg, files, hf, hr, hi, -⟩ := h.head
    have hc := h.chain
    show List.IsChain _ (_ :: f.files)
    rw [hf] at hc ⊢
    refine hc.cons_cons ?_
    show (localtime now = localtime seg.rolltime ∧ _) ∨ (localtime now ≠ localtime seg.rolltime ∧ _)
    rw [hr, hi]
    cases newday with
    | true => exact .inr ⟨(hnew.mp rfl).symm, rfl⟩
    | false =>
      refine .inl ⟨?_, rfl⟩
      by_contra hne
      cases hnew.mpr (Ne.symm hne)
  first := by
    obtain ⟨seg, files, hf, -⟩ := h.head
    intro last hl
    refine h.first last ?_
    rw [← hl, State.rollFile, hf]
    rfl
  mem := by
    intro seg hs
    rcases List.mem_cons.mp hs with rfl | hs
    · exact hnow
    · exact hmem _ (h.mem seg hs)
  before := by
    intro seg hs
    rcases List.mem_cons.mp hs with rfl | hs
    · exact .inl rfl
    · exact hbefore seg hs
  apart := by
    intro hno
    obtain ⟨hold, hday⟩ := hapart hno
    refine List.pairwise_cons.mpr ⟨fun c hc he => ?_, h.apart hold⟩
    cases newday with
    | true => exact absurd he.symm (hday rfl c hc)
    | false =>
      have hsame : localtime f.rolltime = localtime now := by
        by_contra hne
        cases hnew.mpr hne
      obtain ⟨seg, files, hf, hr, hi, -⟩ := h.head
      have hp := h.apart hold
      rw [hf] at hc hp
      show c.idx < f.logidx + 1
      rw [← hi]
      rcases List.mem_cons.mp hc with rfl | hc
      · exact Nat.lt_succ_self _
      · refine Nat.lt_succ_of_lt ((List.pairwise_cons.mp hp).1 c hc ?_)
        rw [hr, hsame, ← he]

/-! ## What a write does -/

theorem written_rollFile (f : State) (newday : Bool) (now : Int) :
    written (f.rollFile localtime newday now) = written f := by
  simp [written, State.rollFile]

theorem Inv.written_put (h : Inv localtime f times) (record : Record) : written (f.put record) = written f ++ [record] := by
  obtain ⟨seg, files, hf, -⟩ := h.head
  simp [written, State.put, hf]

theorem Inv.checkDay (h : Inv localtime f times) (hc : Clock localtime f) {now : Int} (hnow : 0 < now) :
    Inv localtime (f.checkDay localtime now) (times ++ [now]) ∧
      localtime (f.checkDay localtime now).rolltime = localtime now ∧ (f.checkDay localtime now).lastctime = now ∧
      Same f (f.checkDay localtime now) ∧ written (f.checkDay localtime now) = written f := by
  unfold State.checkDay
  split
  · next he =>
    refine ⟨h.tick now, ?_, he.symm, .refl f, rfl⟩
    rcases hc with h0 | h0
    · exact absurd (he.trans h0) (Int.ne_of_gt hnow)
    · rw [h0, ← he]
  dsimp only
  split
  · next hd =>
    have ht := h.tick now
    exact ⟨⟨ht.head, ht.day, ht.sized, ht.name, ht.chain, ht.first, ht.mem, ht.before, ht.apart⟩, hd, rfl,
      ⟨rfl, rfl, rfl, rfl⟩, rfl⟩
  · next hd =>
    have hr : Inv localtime (f.rollFile localtime true now) (times ++ [now]) := by
      refine h.roll true now ⟨fun _ => hd, fun _ => rfl⟩ (List.mem_append_right _ (List.mem_singleton_self _))
        (fun _ => List.mem_append_left _) ?_ ?_
      · intro seg hs
        refine .inr ⟨now, rfl, ?_⟩
        exact (List.singleton_sublist.mpr (h.mem seg hs)).append (.refl [now])
      · refine fun hno => ⟨hno.of_append, fun _ seg hs he => hd ?_⟩
        -- a file of this day, then the one that is open, and the day again
        rcases h.before seg hs with h1 | ⟨t, h1, h2⟩
        · rw [← h1, he]
        · rw [← h1, hno seg.rolltime t now (h2.append (.refl [now])) he, he]
    exact ⟨⟨hr.head, hr.day, hr.sized, hr.name, hr.chain, hr.first, hr.mem, hr.before, hr.apart⟩, rfl, rfl,
      ⟨rfl, rfl, rfl, rfl⟩, written_rollFile f true now⟩

theorem Inv.checkSize (h : Inv localtime f times) {now : Int} (hd : localtime f.rolltime = localtime now)
    (hnow : now ∈ times) : Inv localtime (f.checkSize localtime now) times ∧
      localtime (f.checkSize localtime now).rolltime = localtime now ∧
      (f.checkSize localtime now).lastctime = f.lastctime ∧ Same f (f.checkSize localtime now) ∧
      written (f.checkSize localtime now) = written f ∧
      ∃ seg files, (f.checkSize localtime now).files = seg :: files ∧ (seg.records = [] ∨ seg.size < f.rollsize) := by
  unfold State.checkSize
  split
  · refine ⟨h.roll false now ⟨nofun, fun hne => absurd hd hne⟩ hnow (fun _ => id) ?_ fun hno => ⟨hno, nofun⟩, rfl, rfl,
      ⟨rfl, rfl, rfl, rfl⟩, written_rollFile f false now, _, _, rfl, .inl rfl⟩
    intro seg hs
    rw [← hd]
    exact h.before seg hs
  · next hlt =>
    obtain ⟨seg, files, hf, -, -, hsize⟩ := h.head
    refine ⟨h, hd, rfl, .refl f, rfl, seg, files, hf, .inr ?_⟩
    rw [hsize]
    exact Nat.lt_of_not_le hlt

theorem Segment.size_append (seg : Segment) (record : Record) :
    ({ seg with records := seg.records ++ [record] } : Segment).size = seg.size + record.bytes.length := by
  simp [Segment.size]

theorem Inv.put (h : Inv localtime f times) {record : Record} (hd : localtime f.rolltime = localtime record.now)
    (hfull : ∃ seg files, f.files = seg :: files ∧ (seg.records = [] ∨ seg.size < f.rollsize)) :
    Inv localtime { f.put record with writesize := f.writesize + record.bytes.length } times := by
  obtain ⟨seg, files, hf, hfull⟩ := hfull
  obtain ⟨seg', files', hf', hr, hi, hsize⟩ := h.head
  rw [hf] at hf'
  obtain ⟨rfl, rfl⟩ := List.cons.inj hf'
  have hput : f.put record = { f with files := { seg with records := seg.records ++ [record] } :: files } := by
    rw [State.put, hf]
  have hmem : ∀ s ∈ files, s ∈ f.files := fun s hs => hf ▸ List.mem_cons_of_mem _ hs
  have hself : seg ∈ f.files := hf ▸ List.mem_cons_self
  have hchain := h.chain
  have hfirst := h.first
  have hapart := h.apart
  rw [hf] at hchain hfirst hapart
  rw [hput]
  refine ⟨⟨_, _, rfl, hr, hi, ?_⟩, ?_, ?_, ?_, ?_, ?_, ?_, ?_, ?_⟩
  · rw [seg.size_append, hsize]
  · intro s hs
    rcases List.mem_cons.mp hs with rfl | hs
    · intro r hrec
      rcases List.mem_append.mp hrec with hrec | hrec
      · exact h.day seg hself r hrec
      · rw [List.mem_singleton.mp hrec, ← hd, ← hr]
    · exact h.day s (hmem s hs)
  · intro s hs
    rcases List.mem_cons.mp hs with rfl | hs
    · intro init last he
      obtain ⟨rfl, -⟩ := List.append_inj' he rfl
      exact hfull
    · exact h.sized s (hmem s hs)
  · intro s hs
    rcases List.mem_cons.mp hs with rfl | hs
    · exact h.name seg hself
    · exact h.name s (hmem s hs)
  · cases files with
    | nil => exact List.isChain_singleton _
    | cons c files =>
      rw [List.isChain_cons_cons] at hchain ⊢
      exact hchain
  · intro last hl
    cases files with
    | nil =>
      obtain rfl := Option.some.inj hl
      exact hfirst seg rfl
    | cons c files => exact hfirst last hl
  · intro s hs
    rcases List.mem_cons.mp hs with rfl | hs
    · exact h.mem seg hself
    · exact h.mem s (hmem s hs)
  · intro s hs
    rcases List.mem_cons.mp hs with rfl | hs
    · exact h.before seg hself
    · exact h.before s (hmem s hs)
  · intro hno
    have hp := hapart hno
    rw [List.pairwise_cons] at hp ⊢
    exact hp

theorem Inv.write (h : Inv localtime f times) (hc : Clock localtime f) (op : Op) (hnow : 0 < op.now) :
    Inv localtime (f.write localtime op.now op.data op.wsizes).1 (times ++ [op.now]) ∧
      Clock localtime (f.write localtime op.now op.data op.wsizes).1 ∧
      Same f (f.write localtime op.now op.data op.wsizes).1 ∧
      written (f.write localtime op.now op.data op.wsizes).1 = written f ++ [op.record] := by
  obtain ⟨h1, hd1, hl1, hr1, hw1⟩ := h.checkDay hc hnow
  obtain ⟨h2, hd2, hl2, hr2, hw2, hfull⟩ := h1.checkSize hd1 (List.mem_append_right _ (List.mem_singleton_self _))
  rw [← hr2.rollsize] at hfull
  have hput := h2.put (show localtime _ = localtime op.record.now from hd2) hfull
  have hsame : ∀ (g : State) (r : Record), (g.put r).rolltime = g.rolltime ∧ (g.put r).lastctime = g.lastctime ∧
      Same g (g.put r) := by
    intro g r
    unfold State.put
    split <;> exact ⟨rfl, rfl, rfl, rfl, rfl, rfl⟩
  obtain ⟨hs1, hs2, hs3⟩ := hsame ((f.checkDay localtime op.now).checkSize localtime op.now) op.record
  have hsame' := (hr1.trans hr2).trans hs3
  refine ⟨hput, .inr ?_, ⟨hsame'.filename, hsame'.pid, hsame'.withpid, hsame'.rollsize⟩, ?_⟩
  · exact (congrArg localtime hs1).trans (hd2.trans (congrArg localtime (hs2.trans (hl2.trans hl1))).symm)
  · rw [← hw1, ← hw2, ← h2.written_put]
    rfl

theorem Inv.run {ops : List Op} (h : Inv localtime f times) (hc : Clock localtime f) (hnow : ∀ op ∈ ops, 0 < op.now) :
    Inv localtime (f.run localtime ops) (times ++ ops.map (·.now)) ∧ Same f (f.run localtime ops) ∧
      written (f.run localtime ops) = written f ++ ops.map Op.record := by
  induction ops generalizing f times with
  | nil => exact ⟨by simpa [State.run] using h, .refl f, by simp [State.run]⟩
  | cons op ops ih =>
    obtain ⟨h1, hc1, hr1, hw1⟩ := h.write hc op (hnow op List.mem_cons_self)
    obtain ⟨h2, hr2, hw2⟩ := ih h1 hc1 fun o ho => hnow o (List.mem_cons_of_mem _ ho)
    rw [List.append_assoc] at h2
    refine ⟨h2, hr1.trans hr2, ?_⟩
    rw [show f.run localtime (op :: ops) = State.run localtime _ ops from rfl, hw2, hw1, List.append_assoc]
    rfl

end

/-! ## Names -/

/-- What `localtime` can give. -/
def Day.Calendar (day : Day) : Prop := day.month < 100 ∧ day.day < 100

theorem ofNat_inj {m n : Nat} (h : ofNat m = ofNat n) : m = n := by
  rw [← digits_ofNat m, h, digits_ofNat]

theorem two_inj {m n : Nat} (hm : m < 100) (hn : n < 100) (h : two m = two n) : m = n := by
  obtain ⟨h1, h2⟩ := List.cons.inj h
  have h2 := (List.cons.inj h2).1
  rw [← UInt8.toNat_inj, UInt8.toNat_ofNat', UInt8.toNat_ofNat'] at h1 h2
  omega

theorem isDigit_two {n : Nat} {b : UInt8} (h : b ∈ two n) : isDigit b = true := by
  have hall : ∀ m < 10, isDigit (UInt8.ofNat (48 + m)) = true := by decide
  simp only [two, List.mem_cons, List.not_mem_nil, or_false] at h
  rcases h with rfl | rfl
  · exact hall _ (Nat.mod_lt _ (by decide))
  · exact hall _ (Nat.mod_lt _ (by decide))

theorem isDigit_getcurtime {day : Day} {b : UInt8} (h : b ∈ getcurtime day) : isDigit b = true := by
  simp only [getcurtime, List.mem_append] at h
  rcases h with (h | h) | h
  · exact isDigit_of_mem_ofNat h
  · exact isDigit_two h
  · exact isDigit_two h

theorem getcurtime_inj {a b : Day} (ha : a.Calendar) (hb : b.Calendar) (h : getcurtime a = getcurtime b) : a = b := by
  obtain ⟨h, hd⟩ := List.append_inj' h rfl
  obtain ⟨hy, hm⟩ := List.append_inj' h rfl
  cases a
  cases b
  obtain rfl := ofNat_inj hy
  obtain rfl := two_inj ha.1 hb.1 hm
  obtain rfl := two_inj ha.2 hb.2 hd
  rfl

/-- Digits end where the first other byte stands. -/
theorem digits_split {a b r s : List UInt8} (ha : ∀ x ∈ a, isDigit x = true) (hb : ∀ x ∈ b, isDigit x = true) {c : UInt8}
    (hc : isDigit c = false) (h : a ++ c :: r = b ++ c :: s) : a = b ∧ r = s := by
  have htake : ∀ (l r : List UInt8), (∀ x ∈ l, isDigit x = true) → (l ++ c :: r).takeWhile isDigit = l := by
    intro l r hl
    rw [List.takeWhile_append_of_pos hl, List.takeWhile_cons_of_neg (by rw [hc]; decide), List.append_nil]
  have hab : a = b := by rw [← htake a r ha, h, htake b s hb]
  refine ⟨hab, ?_⟩
  rw [hab] at h
  exact (List.cons.inj (List.append_cancel_left h)).2

theorem fullname_inj {a b : Day} (ha : a.Calendar) (hb : b.Calendar) {pid filename : List UInt8} {i j : Nat} {withpid : Bool}
    (h : fullname a pid filename i withpid = fullname b pid filename j withpid) : a = b ∧ i = j := by
  have h := (List.cons.inj (List.append_cancel_left h)).2
  rw [List.append_assoc, List.append_assoc] at h
  have hidx : ∀ r s : List UInt8, getcurtime a ++ 95 :: r = getcurtime b ++ 95 :: s → getcurtime a = getcurtime b ∧ r = s :=
    fun r s => digits_split (fun _ => isDigit_getcurtime) (fun _ => isDigit_getcurtime) (by decide)
  have hlog : ofNat i ++ dotLog = ofNat j ++ dotLog → i = j := fun he => ofNat_inj (List.append_cancel_right he)
  cases withpid with
  | true =>
    obtain ⟨h1, h2⟩ := hidx _ _ h
    exact ⟨getcurtime_inj ha hb h1, hlog (List.cons.inj (List.append_cancel_left h2)).2⟩
  | false =>
    obtain ⟨h1, h2⟩ := hidx _ _ h
    exact ⟨getcurtime_inj ha hb h1, hlog h2⟩

theorem fwriteAll_whole {data : List UInt8} {wsizes : List Nat} (h : Whole data wsizes) :
    fwriteAll data data.length wsizes = (data, 0) := by
  rcases h with rfl | ⟨n, rest, rfl, hn⟩
  · cases wsizes <;> simp [fwriteAll]
  · have hnil : fwriteAll data 0 rest = ([], 0) := by cases rest <;> simp [fwriteAll]
    by_cases h0 : data.length = 0
    · simp [fwriteAll, List.length_eq_zero_iff.mp h0]
    · have hne : n ≠ 0 := fun he => h0 (Nat.le_zero.mp (he ▸ hn))
      rw [fwriteAll, if_neg (not_or.mpr ⟨h0, hne⟩), Nat.min_eq_right hn, Nat.sub_self, hnil, List.take_length]
      exact congrArg (·, 0) (List.append_nil data)

/-! ## Runs -/

/-- The files hold what every call wrote, whole and in the order of the calls. Each is of one day and is not full before
its last record, the numbers of a day go up from 1, and as long as no day comes back no two files have one name. -/
theorem files_spec (localtime : Int → Day) (filename pid : List UInt8) (rollsize : Nat) (withpid : Bool) (start : Int)
    (ops : List Op) (hnow : ∀ op ∈ ops, 0 < op.now) (hday : ∀ t, (localtime t).Calendar) :
    ∃ f, (State.construct localtime filename pid rollsize withpid start).run localtime ops = f ∧
      written f = ops.map Op.record ∧ (∀ op ∈ ops, Whole op.data op.wsizes → op.record.bytes = op.data) ∧
      (∀ seg ∈ f.files, Sized rollsize seg.records ∧ ∀ record ∈ seg.records, localtime record.now = localtime seg.rolltime) ∧
      f.files.IsChain (Follows localtime) ∧ (∀ seg, f.files.getLast? = some seg → seg.idx = 1) ∧
      (NoReturn localtime (start :: ops.map (·.now)) →
        (∀ seg ∈ f.files, (fullname (localtime seg.rolltime) pid filename seg.idx withpid).length ≤ 99) →
        (f.files.map (·.name)).Nodup) := by
  have h0 : Inv localtime _ [start] := Inv.construct filename pid rollsize withpid start
  obtain ⟨h, hr, hw⟩ := h0.run (.inl rfl) hnow
  refine ⟨_, rfl, hw, ?_, ?_, h.chain, h.first, ?_⟩
  · intro op _ hwhole
    rw [Op.record, fwriteAll_whole hwhole]
  · intro seg hs
    exact ⟨(show (State.run localtime _ ops).rollsize = rollsize from hr.rollsize) ▸ h.sized seg hs, h.day seg hs⟩
  · intro hno hlen
    refine List.pairwise_map.mpr ((h.apart hno).imp_of_mem fun {a c} ha hc hac he => ?_)
    have hname : ∀ seg ∈ ((State.construct localtime filename pid rollsize withpid start).run localtime ops).files,
        seg.name = fullname (localtime seg.rolltime) pid filename seg.idx withpid := by
      intro seg hs
      rw [h.name seg hs, hr.pid, hr.filename, hr.withpid]
      exact List.take_of_length_le (hlen seg hs)
    rw [hname a ha, hname c hc] at he
    obtain ⟨h1, h2⟩ := fullname_inj (hday _) (hday _) he
    exact absurd (hac h1) (by omega)

theorem files_spec_two_days :
    let localtime : Int → Day := fun t => ⟨2018, 1, if t < 100 then 1 else 2⟩
    let ops : List Op := [⟨50, [97], [1]⟩, ⟨100, [98], [1]⟩]
    written ((State.construct localtime [120] [] 10 false 1).run localtime ops) = ops.map Op.record := by
  have hday : ∀ t : Int, (Day.mk 2018 1 (if t < 100 then 1 else 2)).Calendar := by
    intro t
    show 1 < 100 ∧ (if t < 100 then 1 else 2) < 100
    split <;> decide
  obtain ⟨_, rfl, h, -⟩ := files_spec (fun t => ⟨2018, 1, if t < 100 then 1 else 2⟩) [120] [] 10 false 1
    [⟨50, [97], [1]⟩, ⟨100, [98], [1]⟩] (by simp) hday
  exact h

end GlobalServer.LogFile

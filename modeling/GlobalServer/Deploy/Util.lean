import GlobalServer.Deploy.GcmData
import GlobalServer.Lib.Regex
import GlobalServer.Lib.Separated
import Mathlib.Data.List.Sort

/-!
# Selecting instances

A command of the deploy tool is for the instances whose name has a pattern.
The pattern becomes a regular expression, in which a `*` between dots is `.+`
and the rest is left as it is.
-/

namespace GlobalServer.Deploy

def regexPattern (pattern : String) : List Char :=
  '^' :: (['\\', '.'].intercalate ((pattern.toList.splitOn '.').map fun s => if s ≠ ['*'] then s else ['.', '+']) ++ ['$'])

/-- The loop of `get_instances`. -/
def instanceList (regPattern : List Char) : List ArtifactInstance → Except Regex.Fault (List ArtifactInstance)
  | [] => .ok []
  | instance_ :: l => do
    let m ← Regex.startsWith regPattern instance_.instanceName.toList
    let l' ← instanceList regPattern l
    return if m then instance_ :: l' else l'

def getInstances (artifactInstances : List ArtifactInstance) (pattern : String) :
    Except Regex.Fault (List ArtifactInstance) := do
  let l ← instanceList (regexPattern pattern) artifactInstances
  return l.insertionSort fun a b => b.startPriority ≤ a.startPriority

/-- The command line, as far as `check_argument` looks at it. -/
structure Args where
  cmd : String
  pattern : String
  conf : List String
  address : String
  deriving DecidableEq

/-- `check_argument`, with `none` where it returns `False` -/
def checkArgument (isDir : String → Bool) (args : Args) : Option Args :=
  if args.conf = [] then none
  else if ¬ args.conf.all isDir then none
  else if args.cmd ∈ ["push_agent", "start_agent"] then some { args with pattern := args.pattern ++ ".*.*.*" }
  else if args.cmd = "copy" then if args.address = "" then none else some args
  else
    match args.pattern.toList.splitOn '.' with
    | [p, q] => some { args with pattern := String.ofList p ++ ".*." ++ String.ofList q ++ ".*" }
    | [_, _, _, _] => some args
    | _ => none

/-! ## What the commands are for -/

/-- A name has a pattern component by component. -/
def agrees : List (List Char) → List (List Char) → Bool
  | [], [] => true
  | s :: ps, n :: ns => (s = ['*'] ∨ n = s) && agrees ps ns
  | _, _ => false

def Matches (pattern name : String) : Bool := agrees (pattern.toList.splitOn '.') (name.toList.splitOn '.')

structure Selects (artifactInstances : List ArtifactInstance) (pattern : String) (l : List ArtifactInstance) : Prop where
  once : l.Perm (artifactInstances.filter fun i => Matches pattern i.instanceName)
  sorted : l.Pairwise fun a b => b.startPriority ≤ a.startPriority
  /-- within one priority the order is that of the configuration -/
  stable : ∀ k, (l.filter fun i => i.startPriority = k) =
    (artifactInstances.filter fun i => Matches pattern i.instanceName).filter fun i => i.startPriority = k

/-- A component of a pattern is `*` or stands for itself in a regular expression. -/
def PlainPattern (pattern : String) : Prop :=
  ∀ s ∈ pattern.toList.splitOn '.', s = ['*'] ∨ Regex.plain s = true

/-- What a `*` stands for. -/
def Word (n : List Char) : Prop := n ≠ [] ∧ '\n' ∉ n

def Reads (s n : List Char) : Prop := if s = ['*'] then Word n else n = s

/-! ## The expression of a plain pattern -/

def componentItems (s : List Char) : List Regex.Item := if s = ['*'] then [.plus .any] else s.map fun c => .one (.lit c)

def patternItems : List (List Char) → List Regex.Item
  | [] => [.eol]
  | [s] => componentItems s ++ [.eol]
  | s :: s' :: ps => componentItems s ++ .one (.lit '.') :: patternItems (s' :: ps)

theorem parses_component {s l : List Char} {is : List Regex.Item} (hs : s = ['*'] ∨ Regex.plain s = true)
    (hl : Regex.Ends l) (h : Regex.Parses l is) :
    Regex.Parses ((if s ≠ ['*'] then s else ['.', '+']) ++ l) (componentItems s ++ is) := by
  by_cases hstar : s = ['*']
  · rw [componentItems, if_neg (not_not.mpr hstar), if_pos hstar]
    exact h.anyPlus
  · rw [componentItems, if_pos hstar, if_neg hstar]
    exact h.lit hl (hs.resolve_left hstar)

theorem parses_pattern : ∀ {ps : List (List Char)}, ps ≠ [] → (∀ s ∈ ps, s = ['*'] ∨ Regex.plain s = true) →
    Regex.Parses (['\\', '.'].intercalate (ps.map fun s => if s ≠ ['*'] then s else ['.', '+']) ++ ['$']) (patternItems ps)
  | [], h, _ => absurd rfl h
  | [s], _, hs => by
    rw [List.map_singleton, List.intercalate_singleton]
    exact parses_component (hs s List.mem_cons_self) (by simp [Regex.Ends]) .eol
  | s :: s' :: ps, _, hs => by
    rw [List.map_cons, List.intercalate_cons_of_ne_nil (by simp), List.append_assoc, List.append_assoc]
    have h := parses_pattern (List.cons_ne_nil s' ps) fun t ht => hs t (List.mem_cons_of_mem s ht)
    exact parses_component (hs s List.mem_cons_self) (by simp [Regex.Ends]) (h.escape (by decide))

theorem bol_not_mem : ∀ ps : List (List Char), Regex.Item.bol ∉ patternItems ps := by
  have hc : ∀ s : List Char, Regex.Item.bol ∉ componentItems s := by
    intro s
    unfold componentItems
    split <;> simp
  intro ps
  induction ps with
  | nil => simp [patternItems]
  | cons s ps ih =>
    cases ps with
    | nil => simp [patternItems, hc]
    | cons s' ps => simp [patternItems, hc, ih]

theorem match_component {r : List Regex.Item} (hr : Regex.Item.bol ∉ r) {s text : List Char} {start : Bool} :
    Regex.matchItems (componentItems s ++ r) start text = true ↔
      ∃ n t, text = n ++ t ∧ Reads s n ∧ Regex.matchItems r false t = true := by
  unfold componentItems Reads
  split
  · rw [List.singleton_append, Regex.matchItems_plus hr]
    refine exists_congr fun n => exists_congr fun t => and_congr_right fun _ => ?_
    rw [← and_assoc]
    refine and_congr_left fun _ => and_congr_right fun _ => ?_
    simp only [Regex.Single.admits, decide_eq_true_eq]
    exact ⟨fun h hm => h _ hm rfl, fun h c hc he => h (he ▸ hc)⟩
  · rw [Regex.matchItems_lit hr]
    simp

/-- The text of components that the pattern reads, perhaps with a newline at its end. -/
theorem match_patternItems : ∀ {ps : List (List Char)} {text : List Char} {start : Bool}, ps ≠ [] →
    (Regex.matchItems (patternItems ps) start text = true ↔
      ∃ ns, List.Forall₂ Reads ps ns ∧ (text = ['.'].intercalate ns ∨ text = ['.'].intercalate ns ++ ['\n']))
  | [], _, _, h => absurd rfl h
  | [s], text, start, _ => by
    have heol : ∀ t, Regex.matchItems [.eol] false t = true ↔ t = [] ∨ t = ['\n'] := by
      intro t
      simp [Regex.matchItems]
    rw [patternItems, match_component (by simp)]
    simp only [heol]
    constructor
    · rintro ⟨n, t, rfl, hn, rfl | rfl⟩
      · exact ⟨[n], .cons hn .nil, .inl (by simp)⟩
      · exact ⟨[n], .cons hn .nil, .inr (by simp)⟩
    · rintro ⟨ns, hns, h⟩
      obtain ⟨n, ns', hn, hnil, rfl⟩ := List.forall₂_cons_left_iff.mp hns
      obtain rfl := List.forall₂_nil_left_iff.mp hnil
      rw [List.intercalate_singleton] at h
      rcases h with rfl | rfl
      · exact ⟨text, [], by simp, hn, .inl rfl⟩
      · exact ⟨n, ['\n'], rfl, hn, .inr rfl⟩
  | s :: s' :: ps, text, start, _ => by
    have hr := bol_not_mem (s' :: ps)
    have hdot : ∀ t, Regex.matchItems (.one (.lit '.') :: patternItems (s' :: ps)) false t = true ↔
        ∃ t', t = '.' :: t' ∧ Regex.matchItems (patternItems (s' :: ps)) false t' = true :=
      fun t => Regex.matchItems_lit hr (w := ['.'])
    rw [patternItems, match_component (by simp [hr])]
    simp only [hdot, match_patternItems (List.cons_ne_nil s' ps)]
    constructor
    · rintro ⟨n, t, rfl, hn, t', rfl, ns, hns, h⟩
      obtain ⟨n', ns', -, -, rfl⟩ := List.forall₂_cons_left_iff.mp hns
      refine ⟨n :: n' :: ns', .cons hn hns, ?_⟩
      rcases h with rfl | rfl
      · exact .inl (by simp [List.intercalate_cons_cons])
      · exact .inr (by simp [List.intercalate_cons_cons])
    · rintro ⟨ns, hns, h⟩
      obtain ⟨n, ns', hn, hns', rfl⟩ := List.forall₂_cons_left_iff.mp hns
      obtain ⟨n', ns'', -, -, rfl⟩ := List.forall₂_cons_left_iff.mp hns'
      rcases h with rfl | rfl
      · exact ⟨n, _, by simp [List.intercalate_cons_cons], hn, _, rfl, n' :: ns'', hns', .inl rfl⟩
      · exact ⟨n, _, by simp [List.intercalate_cons_cons], hn, _, rfl, n' :: ns'', hns', .inr rfl⟩

/-! ## Names of as many components as the pattern has -/

/-- The last component of a name may have a newline behind what is read. -/
def LastReads (s n : List Char) : Prop := Reads s n ∨ ∃ m, n = m ++ ['\n'] ∧ Reads s m

theorem match_iff {ps ns : List (List Char)} {s n name : List Char} {start : Bool} (hname : name.splitOn '.' = ns ++ [n])
    (hlen : ns.length ≤ ps.length) : Regex.matchItems (patternItems (ps ++ [s])) start name = true ↔
      List.Forall₂ Reads ps ns ∧ LastReads s n := by
  have hjoin : name = ['.'].intercalate (ns ++ [n]) := by rw [← hname, List.intercalate_splitOn]
  have hsplit : ∀ {ns' : List (List Char)} {n' : List Char}, ns'.length = ps.length →
      name = ['.'].intercalate (ns' ++ [n']) → ns' = ns ∧ n' = n := by
    intro ns' n' hl he
    have hcount : ((['.'].intercalate (ns' ++ [n'])).splitOn '.').length ≤ (ns' ++ [n']).length := by
      rw [← he, hname, List.length_append, List.length_append]
      simp only [List.length_singleton]
      omega
    have hdot := Separated.not_mem_of_length (by simp) hcount
    have hs := (Separated.splitOn_intercalate_iff (by simp)).mpr hdot
    rw [← he, hname] at hs
    obtain ⟨h₁, h₂⟩ := List.append_inj' hs rfl
    exact ⟨h₁.symm, (List.singleton_inj.mp h₂).symm⟩
  rw [match_patternItems (by simp)]
  constructor
  · rintro ⟨ns', hns, he⟩
    obtain ⟨ns', m, rfl, hps, hm⟩ := List.Forall₂.concat_left_iff.mp hns
    rcases he with he | he
    · obtain ⟨rfl, rfl⟩ := hsplit hps.length_eq.symm he
      exact ⟨hps, .inl hm⟩
    · rw [Separated.intercalate_concat_append] at he
      obtain ⟨rfl, rfl⟩ := hsplit hps.length_eq.symm he
      exact ⟨hps, .inr ⟨m, rfl, hm⟩⟩
  · rintro ⟨hps, hn | ⟨m, rfl, hm⟩⟩
    · exact ⟨ns ++ [n], List.Forall₂.concat_iff.mpr ⟨hps, hn⟩, .inl hjoin⟩
    · refine ⟨ns ++ [m], List.Forall₂.concat_iff.mpr ⟨hps, hm⟩, .inr ?_⟩
      rw [hjoin, Separated.intercalate_concat_append]

theorem agrees_iff : ∀ {ps ns : List (List Char)}, agrees ps ns = true ↔
    List.Forall₂ (fun s n => s = ['*'] ∨ n = s) ps ns
  | [], [] => by simp [agrees]
  | [], _ :: _ => by simp [agrees]
  | _ :: _, [] => by simp [agrees]
  | s :: ps, n :: ns => by
    rw [agrees, Bool.and_eq_true, decide_eq_true_eq, List.forall₂_cons, agrees_iff]

/-- At each `*` there is a component that `.+` reads. -/
def StarsRead (ps ns : List (List Char)) : Prop := List.Forall₂ (fun s n => s = ['*'] → Word n) ps ns

/-- What the components of a name are to be, for a pattern of the components `ps ++ [s]`. -/
structure Fits (ps : List (List Char)) (s : List Char) (ns : List (List Char)) (n : List Char) : Prop where
  /-- in a name that has the pattern, no component at a `*` is empty or has a newline but at the end of the name -/
  stars : agrees (ps ++ [s]) (ns ++ [n]) = true → StarsRead ps ns ∧ (s = ['*'] → LastReads s n)
  /-- the name is not one that has the pattern with a newline behind it -/
  newline : List.Forall₂ Reads ps ns → s ≠ ['*'] → n ≠ s ++ ['\n']

theorem reads_iff {s n : List Char} : Reads s n ↔ (s = ['*'] ∨ n = s) ∧ (s = ['*'] → Word n) := by
  unfold Reads
  by_cases hs : s = ['*'] <;> simp [hs]

theorem forall₂_reads_iff {ps ns : List (List Char)} :
    List.Forall₂ Reads ps ns ↔ agrees ps ns = true ∧ StarsRead ps ns := by
  rw [agrees_iff, StarsRead, ← List.Forall₂.and_iff]
  simp only [← reads_iff]

theorem fits_iff {ps ns : List (List Char)} {s n : List Char} :
    (List.Forall₂ Reads ps ns ∧ LastReads s n ↔ agrees (ps ++ [s]) (ns ++ [n]) = true) ↔ Fits ps s ns n := by
  have hlast : agrees (ps ++ [s]) (ns ++ [n]) = true ↔ agrees ps ns = true ∧ (s = ['*'] ∨ n = s) := by
    rw [agrees_iff, List.Forall₂.concat_iff, ← agrees_iff]
  constructor
  · intro h
    refine ⟨fun ha => ?_, fun hr hs hn => ?_⟩
    · obtain ⟨hr, hl⟩ := h.mpr ha
      exact ⟨(forall₂_reads_iff.mp hr).2, fun _ => hl⟩
    · have hl : LastReads s n := .inr ⟨s, hn, by rw [Reads, if_neg hs]⟩
      rcases (hlast.mp (h.mp ⟨hr, hl⟩)).2 with h1 | h1
      · exact hs h1
      · rw [h1] at hn
        exact absurd hn (by simp)
  · intro h
    constructor
    · rintro ⟨hr, hl⟩
      refine hlast.mpr ⟨(forall₂_reads_iff.mp hr).1, ?_⟩
      by_cases hs : s = ['*']
      · exact .inl hs
      · rcases hl with hl | ⟨m, hn, hm⟩
        · exact (reads_iff.mp hl).1
        · rw [Reads, if_neg hs] at hm
          exact absurd (hm ▸ hn) (h.newline hr hs)
    · intro ha
      obtain ⟨hstars, hl⟩ := h.stars ha
      obtain ⟨ha, hs⟩ := hlast.mp ha
      refine ⟨forall₂_reads_iff.mpr ⟨ha, hstars⟩, ?_⟩
      by_cases hstar : s = ['*']
      · exact hl hstar
      · exact .inl (by rw [Reads, if_neg hstar]; exact hs.resolve_left hstar)

/-! ## What is selected -/

theorem startsWith_plain {pattern : String} (hp : PlainPattern pattern) (name : List Char) :
    Regex.startsWith (regexPattern pattern) name =
      .ok (Regex.matchItems (patternItems (pattern.toList.splitOn '.')) true name) := by
  have h := (parses_pattern (List.splitOn_ne_nil '.' pattern.toList) hp).parse_bol
  unfold Regex.startsWith regexPattern
  rw [h, Except.ok_bind]
  rfl

theorem instanceList_ok {regPattern : List Char} {f : ArtifactInstance → Bool} : ∀ {l : List ArtifactInstance},
    (∀ i ∈ l, Regex.startsWith regPattern i.instanceName.toList = .ok (f i)) →
      instanceList regPattern l = .ok (l.filter f)
  | [], _ => rfl
  | i :: l, h => by
    rw [List.forall_mem_cons] at h
    rw [instanceList, h.1, Except.ok_bind, instanceList_ok h.2, Except.ok_bind, List.filter_cons]
    cases f i <;> rfl

theorem checkArgument_length {isDir : String → Bool} {args args' : Args} (h : checkArgument isDir args = some args')
    (hcmd : args.cmd ≠ "copy") : 4 ≤ (args'.pattern.toList.splitOn '.').length := by
  have hpos : ∀ l : List Char, 1 ≤ (l.splitOn '.').length := fun l => List.length_pos_iff.mpr (List.splitOn_ne_nil '.' l)
  unfold checkArgument at h
  split at h
  · cases h
  split at h
  · cases h
  split at h
  · obtain rfl := Option.some.inj h
    have hstars : (".*.*.*").toList = '.' :: ['*', '.', '*', '.', '*'] := rfl
    rw [String.toList_append, hstars, List.splitOn_append_cons_self, List.length_append]
    exact Nat.add_le_add (hpos _) (by decide : 3 ≤ (['*', '.', '*', '.', '*'].splitOn '.').length)
  split at h
  · rename_i p q hpq
    obtain rfl := Option.some.inj h
    have h1 : (".*.").toList = '.' :: ['*', '.'] := rfl
    have h2 : (".*").toList = '.' :: ['*'] := rfl
    have hs : (['*', '.'] ++ (q ++ '.' :: ['*'])).splitOn '.' = ['*'] :: (q.splitOn '.' ++ [['*']]) := by
      show (['*'] ++ '.' :: (q ++ '.' :: ['*'])).splitOn '.' = _
      rw [List.splitOn_append_cons_self, List.splitOn_append_cons_self]
      rfl
    simp only [String.toList_append, String.toList_ofList, h1, h2, List.append_assoc]
    rw [List.cons_append, List.splitOn_append_cons_self, hs]
    simp only [List.length_append, List.length_cons, List.length_nil]
    have := hpos p
    have := hpos q
    omega
  · rename_i hl
    obtain rfl := Option.some.inj h
    rw [hl]
    exact Nat.le_refl 4
  · cases h

theorem selects_insertionSort {artifactInstances l : List ArtifactInstance} {pattern : String}
    (h : l = artifactInstances.filter fun i => Matches pattern i.instanceName) :
    Selects artifactInstances pattern (l.insertionSort fun a b => b.startPriority ≤ a.startPriority) := by
  subst h
  refine ⟨List.perm_insertionSort _ _, ?_, fun k => ?_⟩
  · have : Std.Total fun a b : ArtifactInstance => b.startPriority ≤ a.startPriority :=
      ⟨fun a b => le_total b.startPriority a.startPriority⟩
    have : IsTrans ArtifactInstance fun a b => b.startPriority ≤ a.startPriority := ⟨fun a b c hab hbc => hbc.trans hab⟩
    exact List.pairwise_insertionSort _ _
  · generalize (artifactInstances.filter fun i => Matches pattern i.instanceName) = l
    have hmem : ∀ a ∈ l.filter fun i => i.startPriority = k, a.startPriority = k := by
      intro a ha
      simpa using List.of_mem_filter ha
    have hsub : (l.filter fun i => i.startPriority = k).Sublist
        (l.insertionSort fun a b => b.startPriority ≤ a.startPriority) := by
      apply List.sublist_insertionSort _ List.filter_sublist
      exact List.pairwise_of_forall_mem_list fun a ha b hb => (hmem b hb).le.trans (hmem a ha).ge
    have hsub' := hsub.filter fun i => i.startPriority = k
    simp only [List.filter_filter, Bool.and_self] at hsub'
    exact (hsub'.eq_of_length ((List.perm_insertionSort _ l).filter _).length_eq.symm).symm

/-- The name has as many components as it should, and they fit the pattern. -/
def NameFits (pattern name : String) : Prop :=
  ∀ ps s ns n, pattern.toList.splitOn '.' = ps ++ [s] → name.toList.splitOn '.' = ns ++ [n] → Fits ps s ns n

theorem nameFits_iff {pattern name : String}
    (hlen : (name.toList.splitOn '.').length ≤ (pattern.toList.splitOn '.').length) :
    (Regex.matchItems (patternItems (pattern.toList.splitOn '.')) true name.toList = Matches pattern name) ↔
      NameFits pattern name := by
  obtain ⟨ps, s, hp⟩ : ∃ ps s, pattern.toList.splitOn '.' = ps ++ [s] :=
    ⟨_, _, (List.dropLast_append_getLast (List.splitOn_ne_nil '.' _)).symm⟩
  obtain ⟨ns, n, hn⟩ : ∃ ns n, name.toList.splitOn '.' = ns ++ [n] :=
    ⟨_, _, (List.dropLast_append_getLast (List.splitOn_ne_nil '.' _)).symm⟩
  rw [hp, hn, List.length_append, List.length_append] at hlen
  rw [Bool.eq_iff_iff, hp, match_iff hn (Nat.le_of_add_le_add_right hlen), Matches, hp, hn, fits_iff]
  constructor
  · intro hf ps' s' ns' n' hp' hn'
    rw [hp] at hp'
    rw [hn] at hn'
    obtain ⟨rfl, hs⟩ := List.append_inj' hp' rfl
    obtain ⟨rfl, hm⟩ := List.append_inj' hn' rfl
    rw [← List.singleton_inj.mp hs, ← List.singleton_inj.mp hm]
    exact hf
  · exact fun hf => hf ps s ns n hp hn

/-- With a plain pattern exactly the matching instances are selected, if and only if the names fit. -/
theorem getInstances_selects_iff {isDir : String → Bool} {args args' : Args}
    (hargs : checkArgument isDir args = some args') (hcmd : args.cmd ≠ "copy") (hp : PlainPattern args'.pattern)
    {artifactInstances : List ArtifactInstance}
    (hnames : ∀ i ∈ artifactInstances, (i.instanceName.toList.splitOn '.').length = 4) :
    (∃ l, getInstances artifactInstances args'.pattern = .ok l ∧ Selects artifactInstances args'.pattern l) ↔
      ∀ i ∈ artifactInstances, NameFits args'.pattern i.instanceName := by
  have hlen := checkArgument_length hargs hcmd
  generalize args'.pattern = pattern at hp hlen
  have hfit : ∀ i ∈ artifactInstances, (NameFits pattern i.instanceName ↔
      Regex.matchItems (patternItems (pattern.toList.splitOn '.')) true i.instanceName.toList =
        Matches pattern i.instanceName) := by
    intro i hi
    rw [nameFits_iff (by rw [hnames i hi]; exact hlen)]
  have hget : getInstances artifactInstances pattern = .ok ((artifactInstances.filter fun i =>
      Regex.matchItems (patternItems (pattern.toList.splitOn '.')) true i.instanceName.toList).insertionSort
        fun a b => b.startPriority ≤ a.startPriority) := by
    unfold getInstances
    rw [instanceList_ok fun i _ => startsWith_plain hp i.instanceName.toList]
    rfl
  constructor
  · rintro ⟨l, hl, hs⟩ i hi
    rw [hget] at hl
    obtain rfl := Except.ok.inj hl
    rw [hfit i hi, Bool.eq_iff_iff]
    have hmem := ((List.perm_insertionSort _ _).symm.trans hs.once).mem_iff (a := i)
    simpa [hi] using hmem
  · intro h
    refine ⟨_, hget, selects_insertionSort (List.filter_congr fun i hi => ?_)⟩
    exact (hfit i hi).mp (h i hi)

/-- `stop` with a pattern, for two instances of one artifact. -/
def stopArgs (pattern : String) : Args := { cmd := "stop", pattern := pattern, conf := ["conf"], address := "" }

def instanceNamed (name : String) (startPriority : Int) : ArtifactInstance :=
  { instanceId := "", instanceName := name, artifactName := "svr", hostName := "", innerIp := "", outerIp := "",
    deployIp := "", startPriority := startPriority }

theorem getInstances_selects_two : (∃ l, getInstances [instanceNamed "a.z.svr.1" 0, instanceNamed "b.z.svr.1" 1] "a.*.svr.*" =
      .ok l ∧ Selects [instanceNamed "a.z.svr.1" 0, instanceNamed "b.z.svr.1" 1] "a.*.svr.*" l) ↔
    ∀ i ∈ [instanceNamed "a.z.svr.1" 0, instanceNamed "b.z.svr.1" 1], NameFits "a.*.svr.*" i.instanceName := by
  have hargs : checkArgument (fun _ => true) (stopArgs "a.svr") = some (stopArgs "a.*.svr.*") := by decide
  have hs : "a.*.svr.*".toList.splitOn '.' = [['a'], ['*'], ['s', 'v', 'r'], ['*']] := by decide
  have hp : PlainPattern "a.*.svr.*" := by
    unfold PlainPattern
    rw [hs]
    simp [Regex.special, Regex.plain]
  exact getInstances_selects_iff hargs (by decide) hp (by decide)

/-- A `+` is not in the names that are selected, and an instance whose name has the pattern is not selected. -/
theorem stop_other_instance : checkArgument (fun _ => true) (stopArgs "a+.*.*.*") = some (stopArgs "a+.*.*.*") ∧
    getInstances [instanceNamed "aa.z.svr.1" 0, instanceNamed "a+.z.svr.1" 0] "a+.*.*.*" =
      .ok [instanceNamed "aa.z.svr.1" 0] ∧
    ¬ Selects [instanceNamed "aa.z.svr.1" 0, instanceNamed "a+.z.svr.1" 0] "a+.*.*.*" [instanceNamed "aa.z.svr.1" 0] := by
  refine ⟨by decide, by decide, fun h => ?_⟩
  have hm := (h.once.mem_iff (a := instanceNamed "aa.z.svr.1" 0)).mp List.mem_cons_self
  exact absurd hm (by decide)

end GlobalServer.Deploy

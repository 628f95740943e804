import GlobalServer.Thirdparty.RedisPool
import Mathlib.Data.List.TakeWhile

/-!
# Commands with many values

These commands put their arguments together in a string and pass it to
`w_redisCommand` as the format, with no further arguments. hiredis takes the
format apart at spaces, and reads an argument that is not there for a
conversion.
-/

namespace GlobalServer

namespace RedisCommand

def space : UInt8 := 32

def percent : UInt8 := 37

/-! ## `redisvFormatCommand` -/

inductive FormatFault where
  /-- a conversion reads a `va_arg` that has not been passed -/
  | noArgument
  /-- the format is refused, and nothing is sent -/
  | invalid
  deriving DecidableEq

/-- `strchr` in `s`, for a byte of a string -/
def isIn (s : String) (b : UInt8) : Bool := s.toList.any fun c => c.toUInt8 = b

/-- A letter for an `int` comes next. -/
def intNext (p : CString) : Bool :=
  match p with
  | [] => false
  | b :: _ => isIn "diouxX" b

/-- The conversion letters behind flags, width and precision. At the end of the format `strchr` finds its own end. -/
def isConversion : CString → Bool
  | [] => true
  | b :: p =>
    if isIn "diouxX" b ∨ isIn "eEfFgGaA" b then true
    else if isIn "h" b then intNext (match p with | b' :: p' => if isIn "h" b' then p' else p | [] => p)
    else if isIn "l" b then intNext (match p with | b' :: p' => if isIn "l" b' then p' else p | [] => p)
    else false

/-- What comes of a `%` with `p` behind it that is neither `%%` nor the end of the format. -/
def conversion (p : CString) : FormatFault :=
  match p with
  | [] => .noArgument
  | b :: _ =>
    if isIn "sb" b then .noArgument
    else
      let p := (p.dropWhile (isIn "#0-+ ")).dropWhile Decimal.isDigit
      let p := match p with | b :: p' => if isIn "." b then p'.dropWhile Decimal.isDigit else p | [] => p
      if isConversion p then .noArgument else .invalid

/-- The loop of `redisvFormatCommand` and its end: `curargv`, `curarg` and `touched` are its variables. -/
def formatLoop (curargv : List CString) (curarg : CString) (touched : Bool) : CString → Except FormatFault (List CString)
  | [] => .ok (if touched then curargv ++ [curarg] else curargv)
  | [b] =>
    if b = space then .ok (if touched then curargv ++ [curarg] else curargv) else .ok (curargv ++ [curarg ++ [b]])
  | b :: b' :: l =>
    if b ≠ percent then
      if b = space then
        if touched then formatLoop (curargv ++ [curarg]) [] false (b' :: l)
        else formatLoop curargv curarg touched (b' :: l)
      else formatLoop curargv (curarg ++ [b]) true (b' :: l)
    else if b' = percent then formatLoop curargv (curarg ++ [percent]) true l
    else .error (conversion (b' :: l))

def redisvFormatCommand (format : CString) : Except FormatFault (List CString) := formatLoop [] [] false format

/-! ## The commands -/

/-- `c_str()`, as far as it is read -/
def cStr (s : CString) : CString := s.takeWhile fun b => b ≠ 0

inductive Command where
  | sadds (key : CString) (values : List CString)
  | sdiff (key : CString) (otherKeys : List CString)
  | sunion (key : CString) (otherKeys : List CString)
  | sinter (key : CString) (otherKeys : List CString)
  | sdiffstore (key : CString) (otherKeys : List CString)
  | sunionstore (key : CString) (otherKeys : List CString)
  | sinterstore (key : CString) (otherKeys : List CString)
  | lpushs (key : CString) (values : List CString)
  | rpushs (key : CString) (values : List CString)
  /-- of fields and their values -/
  | hmset (key : CString) (values : List (CString × CString))
  /-- of members and their scores -/
  | zadds (key : CString) (values : List (CString × CString))

/-- What a command puts together: its name and the key, and what is before and behind each value. -/
structure Parts where
  name : String
  key : CString
  behindKey : CString
  before : CString
  values : List CString
  behind : CString
  /-- without values it returns at once -/
  returnsEmpty : Bool

/-- A space before and behind each value. -/
def Parts.around (name : String) (key : CString) (values : List CString) : Parts :=
  { name, key, behindKey := [], before := [space], values, behind := [space], returnsEmpty := false }

/-- A space behind the key and each value. -/
def Parts.after (name : String) (key : CString) (values : List CString) : Parts :=
  { name, key, behindKey := [space], before := [], values, behind := [space], returnsEmpty := false }

/-- A space before each value. -/
def Parts.front (name : String) (key : CString) (values : List CString) : Parts :=
  { name, key, behindKey := [], before := [space], values, behind := [], returnsEmpty := true }

def Command.parts : Command → Parts
  | .sadds key values => .around "SADD" key values
  | .sdiff key otherKeys => .after "SDIFF" key otherKeys
  | .sunion key otherKeys => .after "SUNION" key otherKeys
  | .sinter key otherKeys => .after "SINTER" key otherKeys
  | .sdiffstore key otherKeys => .after "SDIFFSTORE" key otherKeys
  | .sunionstore key otherKeys => .after "SUNIONSTORE" key otherKeys
  | .sinterstore key otherKeys => .after "SINTERSTORE" key otherKeys
  | .lpushs key values => .front "LPUSH" key values
  | .rpushs key values => .front "RPUSH" key values
  | .hmset key values => { Parts.after "HMSET" key (values.flatMap fun v => [v.1, v.2]) with returnsEmpty := true }
  | .zadds key values => .after "ZADD" key (values.flatMap fun v => [v.2, v.1])

namespace Parts

def nameBytes (p : Parts) : CString := p.name.toList.map Char.toUInt8

def text (p : Parts) : CString :=
  p.nameBytes ++ [space] ++ p.key ++ p.behindKey ++ p.values.flatMap fun v => p.before ++ v ++ p.behind

/-- The arguments that the server is to get. -/
def argv (p : Parts) : List CString := p.nameBytes :: p.key :: p.values

end Parts

/-- What `w_redisCommand` sends, on one connection after the other: once more when there is no reply. -/
def w_redisCommand (format : CString) (reply : Bool) : Except FormatFault (List (List CString)) := do
  let argv ← redisvFormatCommand format
  if reply then .ok [argv]
  else do
    let argv' ← redisvFormatCommand format
    .ok [argv, argv']

namespace Command

/-- What a command sends. -/
def send (c : Command) (reply : Bool) : Except FormatFault (List (List CString)) :=
  if c.parts.returnsEmpty ∧ c.parts.values = [] then .ok [] else w_redisCommand (cStr c.parts.text) reply

/-- The command is sent, and whatever is sent for it is the arguments that the server is to get. -/
def SendsArgv (c : Command) : Prop :=
  ∀ reply, ∃ sent, c.send reply = .ok sent ∧ sent ≠ [] ∧ ∀ argv ∈ sent, argv = c.parts.argv

/-- Whether nothing comes behind the last value, so that a `%` at its end is the last byte of the format. -/
def endsOpen (c : Command) : Bool := c.parts.behind.isEmpty

/-- Where a `%` must not be: not in the last value's last byte, if that ends the format, and else nowhere. -/
def percentFree (c : Command) : List CString :=
  if c.endsOpen then c.parts.key :: (c.parts.values.dropLast ++ [(c.parts.values.getLastD []).dropLast])
  else c.parts.key :: c.parts.values

/-- No key or value is empty or has a space in it, and none a `%` but at the end of the format. -/
structure Plain (c : Command) : Prop where
  words : ∀ v ∈ c.parts.key :: c.parts.values, v ≠ [] ∧ 0 ∉ v ∧ space ∉ v
  percent : ∀ v ∈ c.percentFree, percent ∉ v

end Command

/-! ## What the format gives -/

theorem formatLoop_byte {curargv : List CString} {curarg : CString} {touched : Bool} {b : UInt8} (hs : b ≠ space)
    (hp : b ≠ percent) (l : CString) :
    formatLoop curargv curarg touched (b :: l) = formatLoop curargv (curarg ++ [b]) true l := by
  cases l with
  | nil => simp [formatLoop, hs]
  | cons b' l => rw [formatLoop, if_pos hp, if_neg hs]

theorem formatLoop_space {curargv : List CString} {curarg : CString} (touched : Bool) (h : touched = false → curarg = [])
    (l : CString) : formatLoop curargv curarg touched (space :: l) =
      formatLoop (if touched then curargv ++ [curarg] else curargv) [] false l := by
  cases touched with
  | true => cases l <;> simp [formatLoop, space, percent]
  | false =>
    rw [h rfl]
    cases l <;> simp [formatLoop, space, percent]

theorem formatLoop_word {curargv : List CString} : ∀ {w curarg : CString} {touched : Bool} (l : CString), w ≠ [] →
    space ∉ w → percent ∉ w → formatLoop curargv curarg touched (w ++ l) = formatLoop curargv (curarg ++ w) true l
  | [], _, _, _, h, _, _ => absurd rfl h
  | b :: w, curarg, touched, l, _, hs, hp => by
    rw [List.mem_cons, not_or] at hs hp
    rw [List.cons_append, formatLoop_byte (Ne.symm hs.1) (Ne.symm hp.1)]
    by_cases hw : w = []
    · subst hw
      rfl
    · rw [formatLoop_word l hw hs.2 hp.2, List.append_assoc]
      rfl

theorem formatLoop_last {curargv : List CString} {w curarg : CString} {touched : Bool} (h : w ≠ []) (hs : space ∉ w)
    (hp : percent ∉ w.dropLast) : formatLoop curargv curarg touched w = .ok (curargv ++ [curarg ++ w]) := by
  obtain ⟨w, b, rfl⟩ : ∃ w' b, w = w' ++ [b] := ⟨_, _, (List.dropLast_append_getLast h).symm⟩
  rw [List.dropLast_concat] at hp
  rw [List.mem_append, not_or, List.mem_singleton] at hs
  have hb : ∀ (curarg : CString) (touched : Bool),
      formatLoop curargv curarg touched [b] = .ok (curargv ++ [curarg ++ [b]]) := by
    intro curarg touched
    rw [formatLoop, if_neg (Ne.symm hs.2)]
  by_cases hw : w = []
  · subst hw
    exact hb curarg touched
  · rw [formatLoop_word [b] hw hs.1 hp, hb, List.append_assoc]

/-- The arguments that are complete before a space. -/
def pending (curargv : List CString) (curarg : CString) (touched : Bool) : List CString :=
  if touched then curargv ++ [curarg] else curargv

theorem formatLoop_around : ∀ {values curargv : List CString} {curarg : CString} (touched : Bool),
    (touched = false → curarg = []) → (∀ v ∈ values, v ≠ [] ∧ space ∉ v ∧ percent ∉ v) →
    formatLoop curargv curarg touched (values.flatMap fun v => [space] ++ v ++ [space]) =
      .ok (pending curargv curarg touched ++ values)
  | [], _, _, _, _, _ => by
    rw [List.append_nil]
    rfl
  | v :: values, curargv, curarg, touched, ht, hv => by
    obtain ⟨h1, h2, h3⟩ := hv v List.mem_cons_self
    rw [List.flatMap_cons, List.append_assoc, List.append_assoc, List.singleton_append,
      formatLoop_space touched ht, formatLoop_word _ h1 h2 h3, List.singleton_append, formatLoop_space true nofun,
      formatLoop_around false (fun _ => rfl) fun v' hv' => hv v' (List.mem_cons_of_mem v hv')]
    show Except.ok ((pending curargv curarg touched ++ [[] ++ v]) ++ values) = _
    rw [List.nil_append, List.append_assoc, List.singleton_append]

theorem formatLoop_after : ∀ {values curargv : List CString}, (∀ v ∈ values, v ≠ [] ∧ space ∉ v ∧ percent ∉ v) →
    formatLoop curargv [] false (values.flatMap fun v => [] ++ v ++ [space]) = .ok (curargv ++ values)
  | [], _, _ => by
    rw [List.append_nil]
    rfl
  | v :: values, curargv, hv => by
    obtain ⟨h1, h2, h3⟩ := hv v List.mem_cons_self
    rw [List.flatMap_cons, List.append_assoc, List.nil_append, formatLoop_word _ h1 h2 h3, List.singleton_append,
      formatLoop_space true nofun, if_pos rfl, List.nil_append,
      formatLoop_after fun v' hv' => hv v' (List.mem_cons_of_mem v hv'), List.append_assoc, List.singleton_append]

/-- With a space before each value only, the last value ends the format. -/
theorem formatLoop_front : ∀ {values curargv : List CString} {curarg : CString} (touched : Bool), values ≠ [] →
    (touched = false → curarg = []) → (∀ v ∈ values, v ≠ [] ∧ space ∉ v) → (∀ v ∈ values.dropLast, percent ∉ v) →
    percent ∉ (values.getLastD []).dropLast →
    formatLoop curargv curarg touched (values.flatMap fun v => [space] ++ v ++ []) =
      .ok (pending curargv curarg touched ++ values)
  | [], _, _, _, h, _, _, _, _ => absurd rfl h
  | [v], curargv, curarg, touched, _, ht, hv, _, hl => by
    obtain ⟨h1, h2⟩ := hv v List.mem_cons_self
    rw [List.flatMap_cons, List.flatMap_nil, List.append_nil, List.append_nil, List.singleton_append,
      formatLoop_space touched ht, formatLoop_last h1 h2 hl, List.nil_append]
    rfl
  | v :: v' :: values, curargv, curarg, touched, _, ht, hv, hp, hl => by
    obtain ⟨h1, h2⟩ := hv v List.mem_cons_self
    rw [List.dropLast_cons_cons, List.forall_mem_cons] at hp
    rw [List.flatMap_cons, List.append_nil, List.append_assoc, List.singleton_append,
      formatLoop_space touched ht, formatLoop_word _ h1 h2 hp.1,
      formatLoop_front true (by simp) nofun (fun w hw => hv w (List.mem_cons_of_mem v hw)) hp.2 (by simpa using hl)]
    show Except.ok ((pending curargv curarg touched ++ [[] ++ v]) ++ (v' :: values)) = _
    rw [List.nil_append, List.append_assoc, List.singleton_append]

/-! ## Counting bytes -/

/-- The bytes that are not spaces. -/
def nonspace (l : CString) : Nat := l.countP fun b => b ≠ space

def total (argv : List CString) : Nat := (argv.map List.length).sum

theorem nonspace_cons (b : UInt8) (l : CString) : nonspace (b :: l) = nonspace l + if b = space then 0 else 1 := by
  unfold nonspace
  rw [List.countP_cons]
  by_cases h : b = space <;> simp [h]

theorem nonspace_append (l l' : CString) : nonspace (l ++ l') = nonspace l + nonspace l' := List.countP_append

theorem nonspace_le (l : CString) : nonspace l ≤ l.length := List.countP_le_length

theorem nonspace_eq_length {l : CString} : nonspace l = l.length ↔ space ∉ l := by
  unfold nonspace
  rw [List.countP_eq_length]
  simp only [decide_not, Bool.not_eq_true', decide_eq_false_iff_not]
  exact ⟨fun h hm => h _ hm rfl, fun h b hb he => h (he ▸ hb)⟩

theorem total_append (argv argv' : List CString) : total (argv ++ argv') = total argv + total argv' := by
  unfold total
  rw [List.map_append, List.sum_append]

theorem total_singleton (v : CString) : total [v] = v.length := by simp [total]

theorem total_pending (curargv : List CString) (curarg : CString) (touched : Bool) :
    total (if touched then curargv ++ [curarg] else curargv) ≤ total curargv + curarg.length := by
  cases touched with
  | true => rw [if_pos rfl, total_append, total_singleton]
  | false => exact Nat.le_add_right _ _

theorem mem_dropLast_cons {b b' : UInt8} (h : b ≠ percent) (l : CString) :
    percent ∈ (b :: b' :: l).dropLast ↔ percent ∈ (b' :: l).dropLast := by
  rw [List.dropLast_cons_cons, List.mem_cons, or_iff_right (Ne.symm h)]

/-- What is not a space goes into an argument at most once, and a `%` before the end costs a byte at least. -/
theorem formatLoop_total (curargv : List CString) (curarg : CString) (touched : Bool) (l : CString) :
    ∀ {argv : List CString}, formatLoop curargv curarg touched l = .ok argv →
      total argv + (if percent ∈ l.dropLast then 1 else 0) ≤ total curargv + curarg.length + nonspace l := by
  fun_induction formatLoop curargv curarg touched l with
  | case1 curargv curarg touched =>
    rintro argv ⟨⟩
    exact total_pending curargv curarg touched
  | case2 curargv curarg touched =>
    rintro argv ⟨⟩
    exact (total_pending curargv curarg touched).trans (Nat.le_add_right _ _)
  | case3 curargv curarg touched b hb =>
    rintro argv ⟨⟩
    rw [total_append, total_singleton, List.length_append, nonspace_cons, if_neg hb]
    exact (Nat.add_assoc _ _ _).ge
  | case4 curargv curarg b' l hp ih =>
    intro argv h
    specialize ih h
    rw [total_append, total_singleton] at ih
    simpa only [mem_dropLast_cons hp, nonspace_cons space, if_pos, List.length_nil, Nat.add_zero] using ih
  | case5 curargv curarg touched b' l ht hp ih =>
    intro argv h
    simpa only [mem_dropLast_cons hp, nonspace_cons space, if_pos, Nat.add_zero] using ih h
  | case6 curargv curarg touched b b' l hp hs ih =>
    intro argv h
    specialize ih h
    rw [List.length_append, List.length_singleton] at ih
    rw [nonspace_cons b, if_neg hs]
    simp only [mem_dropLast_cons hp]
    omega
  | case7 curargv curarg touched b l hp ih =>
    intro argv h
    specialize ih h
    obtain rfl : b = percent := not_not.1 hp
    have hs : percent ≠ space := by decide
    rw [List.length_append, List.length_singleton] at ih
    rw [nonspace_cons, nonspace_cons, if_neg hs]
    split <;> omega
  | case8 => nofun

theorem total_eq (argv : List CString) : total argv = argv.flatten.length := List.length_flatten.symm

theorem ne_nil_append {w : CString} {b : UInt8} : w ++ [b] ≠ [] :=
  List.append_ne_nil_of_right_ne_nil w (List.cons_ne_nil b [])

theorem formatLoop_ne_nil (curargv : List CString) (curarg : CString) (touched : Bool) (l : CString)
    (hv : ∀ v ∈ curargv, v ≠ []) (ht : touched = true → curarg ≠ []) (argv : List CString) :
    formatLoop curargv curarg touched l = .ok argv → ∀ v ∈ argv, v ≠ [] := by
  have hend : ∀ {curargv : List CString} {curarg : CString}, (∀ v ∈ curargv, v ≠ []) → curarg ≠ [] →
      ∀ v ∈ curargv ++ [curarg], v ≠ [] := by
    intro curargv curarg hv hc
    rw [List.forall_mem_append, List.forall_mem_singleton]
    exact ⟨hv, hc⟩
  have htouched : ∀ {curargv : List CString} {curarg : CString} {touched : Bool}, (∀ v ∈ curargv, v ≠ []) →
      (touched = true → curarg ≠ []) → ∀ v ∈ (if touched then curargv ++ [curarg] else curargv), v ≠ [] := by
    intro curargv curarg touched hv ht
    split
    · exact hend hv (ht ‹_›)
    · exact hv
  fun_induction formatLoop curargv curarg touched l with
  | case1 =>
    rintro ⟨⟩
    exact htouched hv ht
  | case2 =>
    rintro ⟨⟩
    exact htouched hv ht
  | case3 =>
    rintro ⟨⟩
    exact hend hv ne_nil_append
  | case4 curargv curarg b' l hp ih => exact ih (hend hv (ht rfl)) nofun
  | case5 curargv curarg touched b' l htn hp ih => exact ih hv ht
  | case6 curargv curarg touched b b' l hp hs ih => exact ih hv fun _ => ne_nil_append
  | case7 curargv curarg touched b l hp ih => exact ih hv fun _ => ne_nil_append
  | case8 => nofun

theorem cStr_eq {s : CString} (h : 0 ∉ s) : cStr s = s :=
  List.takeWhile_eq_self_iff.2 fun b hb => decide_eq_true fun hb' : b = 0 => h (hb' ▸ hb)

theorem nonspace_cStr : ∀ {s : CString}, nonspace s ≤ nonspace (cStr s) → 0 ∉ s
  | [], _ => List.not_mem_nil
  | b :: s, h => by
    unfold cStr at h
    rw [List.takeWhile_cons] at h
    by_cases hb : b = 0
    · rw [if_neg (by simpa using hb), nonspace_cons, if_neg (by rw [hb]; decide)] at h
      exact absurd h (Nat.not_succ_le_zero _)
    · rw [if_pos (by simpa using hb), nonspace_cons, nonspace_cons] at h
      rw [List.mem_cons, not_or]
      exact ⟨Ne.symm hb, nonspace_cStr (Nat.le_of_add_le_add_right h)⟩

theorem nonspace_cStr_le (s : CString) : nonspace (cStr s) ≤ nonspace s :=
  (List.takeWhile_sublist _).countP_le

/-! ## What is put together -/

/-- The three ways in which spaces stand around the values. -/
inductive Spaced (p : Parts) : Prop
  | around (hk : p.behindKey = []) (hb : p.before = [space]) (he : p.behind = [space])
  | after (hk : p.behindKey = [space]) (hb : p.before = []) (he : p.behind = [space])
  | front (hk : p.behindKey = []) (hb : p.before = [space]) (he : p.behind = [])

theorem Command.name_word (c : Command) :
    c.parts.nameBytes ≠ [] ∧ space ∉ c.parts.nameBytes ∧ percent ∉ c.parts.nameBytes ∧ 0 ∉ c.parts.nameBytes := by
  cases c <;> simp only [Command.parts, Parts.around, Parts.after, Parts.front, Parts.nameBytes] <;> decide

theorem Command.spaced (c : Command) : Spaced c.parts := by
  cases c with
  | sadds => exact .around rfl rfl rfl
  | lpushs | rpushs => exact .front rfl rfl rfl
  | _ => exact .after rfl rfl rfl

namespace Spaced

variable {p : Parts}

theorem nonspace_values (hs : Spaced p) : ∀ values : List CString,
    nonspace (values.flatMap fun v => p.before ++ v ++ p.behind) = nonspace values.flatten
  | [] => rfl
  | v :: values => by
    have h : nonspace p.before = 0 ∧ nonspace p.behind = 0 := by
      cases hs with
      | around hk hb he | after hk hb he | front hk hb he =>
        rw [hb, he]
        decide
    rw [List.flatMap_cons, List.flatten_cons, nonspace_append, nonspace_append, nonspace_append, nonspace_append, h.1, h.2,
      nonspace_values hs values, Nat.zero_add, Nat.add_zero]

theorem nonspace_text (hs : Spaced p) : nonspace p.text = nonspace p.argv.flatten := by
  have h : nonspace p.behindKey = 0 := by
    cases hs with
    | around hk | after hk | front hk =>
      rw [hk]
      decide
  have hsp : nonspace [space] = 0 := by decide
  unfold Parts.text Parts.argv
  rw [nonspace_append, nonspace_values hs, List.flatten_cons, List.flatten_cons]
  simp only [nonspace_append, h, hsp]
  omega

theorem mem_text (hs : Spaced p) {b : UInt8} (hb : b ≠ space) : b ∈ p.text ↔ b ∈ p.argv.flatten := by
  unfold Parts.text Parts.argv
  cases hs with
  | around hk hf he | after hk hf he | front hk hf he =>
    rw [hk, hf, he]
    simp [hb, List.mem_flatten, List.mem_flatMap]

end Spaced

theorem Command.mem_percentFree {c : Command} {vs : List CString} {v : CString} (hv : c.parts.values = vs ++ [v])
    (hne : v ≠ []) : (∀ w ∈ c.percentFree, percent ∉ w) ↔ percent ∉ c.parts.text.dropLast := by
  have hname := c.name_word.2.2.1
  have hsp : percent ≠ space := by decide
  have hfree : c.percentFree = c.parts.key :: (vs ++ [if c.endsOpen then v.dropLast else v]) := by
    unfold percentFree
    rw [hv, List.dropLast_concat, List.getLastD_concat]
    split <;> rfl
  have hdrop : c.parts.text.dropLast =
      c.parts.nameBytes ++ [space] ++ c.parts.key ++ c.parts.behindKey ++
        (vs.flatMap fun w => c.parts.before ++ w ++ c.parts.behind) ++ c.parts.before ++
        if c.endsOpen then v.dropLast else v := by
    unfold Parts.text
    rw [hv, List.flatMap_append, List.flatMap_cons, List.flatMap_nil, List.append_nil]
    unfold endsOpen
    cases c.spaced with
    | around hk hb he | after hk hb he =>
      rw [he, if_neg (by decide), ← List.append_assoc, ← List.append_assoc, List.dropLast_concat, ← List.append_assoc]
    | front hk hb he =>
      have hnil : ([] : CString).isEmpty = true := rfl
      rw [he, if_pos hnil, List.append_nil, ← List.append_assoc, ← List.append_assoc, List.dropLast_append_of_ne_nil hne]
  rw [hfree, hdrop]
  generalize (if c.endsOpen then v.dropLast else v) = last
  cases c.spaced with
  | around hk hb he | after hk hb he | front hk hb he =>
    rw [hk, hb, he]
    simp [hname, hsp, or_imp, forall_and, List.mem_flatMap]

theorem Command.format_of_plain {c : Command} (hv : c.parts.values ≠ []) (h : c.Plain) :
    redisvFormatCommand (cStr c.parts.text) = .ok c.parts.argv := by
  obtain ⟨hn, hns, hnp, hn0⟩ := c.name_word
  have hwords := h.words
  rw [List.forall_mem_cons] at hwords
  obtain ⟨⟨hk, -, hks⟩, hw⟩ := hwords
  have h0 : 0 ∉ c.parts.text := by
    rw [c.spaced.mem_text (by decide)]
    simp only [Parts.argv, List.flatten_cons, List.mem_append, List.mem_flatten, not_or, not_exists, not_and]
    exact ⟨hn0, (h.words c.parts.key List.mem_cons_self).2.1, fun w hm => (hw w hm).2.1⟩
  have hkp : percent ∉ c.parts.key := by
    apply h.percent
    unfold percentFree
    split <;> exact List.mem_cons_self
  have hlast : c.parts.behind = [space] → ∀ v ∈ c.parts.values, v ≠ [] ∧ space ∉ v ∧ percent ∉ v := by
    intro he v hm
    refine ⟨(hw v hm).1, (hw v hm).2.2, h.percent v ?_⟩
    unfold percentFree endsOpen
    rw [he, if_neg (by decide)]
    exact List.mem_cons_of_mem _ hm
  rw [cStr_eq h0]
  unfold redisvFormatCommand Parts.text
  rw [List.append_assoc, List.append_assoc, List.append_assoc, formatLoop_word _ hn hns hnp, List.singleton_append,
    formatLoop_space true nofun, if_pos rfl, formatLoop_word _ hk hks hkp, List.nil_append, List.nil_append,
    List.nil_append]
  cases c.spaced with
  | around hb hf he =>
    rw [hb, hf, he, List.nil_append, formatLoop_around true nofun (hlast he)]
    rfl
  | after hb hf he =>
    rw [hb, hf, he, List.singleton_append, formatLoop_space true nofun, if_pos rfl, formatLoop_after (hlast he)]
    rfl
  | front hb hf he =>
    have hfree : c.percentFree = c.parts.key :: (c.parts.values.dropLast ++ [(c.parts.values.getLastD []).dropLast]) := by
      have hnil : ([] : CString).isEmpty = true := rfl
      unfold percentFree endsOpen
      rw [he, if_pos hnil]
    have hp := h.percent
    rw [hfree, List.forall_mem_cons, List.forall_mem_append, List.forall_mem_singleton] at hp
    rw [hb, hf, he, List.nil_append, formatLoop_front true hv nofun (fun v hm => ⟨(hw v hm).1, (hw v hm).2.2⟩) hp.2.1 hp.2.2]
    rfl

/-- A format that hiredis takes apart into the arguments is of plain words. -/
theorem Command.plain_of_format {c : Command} (hv : c.parts.values ≠ [])
    (h : redisvFormatCommand (cStr c.parts.text) = .ok c.parts.argv) : c.Plain := by
  have hne : ∀ v ∈ c.parts.argv, v ≠ [] := formatLoop_ne_nil [] [] false _ nofun nofun _ h
  have htotal := formatLoop_total [] [] false _ h
  have htext : nonspace (cStr c.parts.text) ≤ nonspace c.parts.argv.flatten :=
    (nonspace_cStr_le _).trans c.spaced.nonspace_text.le
  have hlen := nonspace_le c.parts.argv.flatten
  rw [total_eq, total_eq, List.flatten_nil, List.length_nil, Nat.zero_add] at htotal
  have hspace : space ∉ c.parts.argv.flatten := nonspace_eq_length.1 (by omega)
  have h0 : 0 ∉ c.parts.text := nonspace_cStr (by rw [c.spaced.nonspace_text]; omega)
  have hpercent : percent ∉ (cStr c.parts.text).dropLast := by
    intro hm
    rw [if_pos hm] at htotal
    omega
  rw [cStr_eq h0] at hpercent
  rw [c.spaced.mem_text (by decide)] at h0
  obtain ⟨vs, v, hvs⟩ : ∃ vs v, c.parts.values = vs ++ [v] := ⟨_, _, (List.dropLast_append_getLast hv).symm⟩
  have hmem : ∀ w ∈ c.parts.key :: c.parts.values, w ∈ c.parts.argv := fun w hm => List.mem_cons_of_mem _ hm
  have hlast : v ∈ c.parts.argv := by
    refine hmem v (List.mem_cons_of_mem _ ?_)
    rw [hvs]
    exact List.mem_append_right vs List.mem_cons_self
  refine ⟨fun w hm => ?_, (mem_percentFree hvs (hne v hlast)).2 hpercent⟩
  exact ⟨hne w (hmem w hm), fun hb => h0 (List.mem_flatten_of_mem (hmem w hm) hb),
    fun hb => hspace (List.mem_flatten_of_mem (hmem w hm) hb)⟩

theorem Command.sendsArgv_iff_format {c : Command} (hv : c.parts.values ≠ []) :
    c.SendsArgv ↔ redisvFormatCommand (cStr c.parts.text) = .ok c.parts.argv := by
  have hsend : ∀ reply, c.send reply = w_redisCommand (cStr c.parts.text) reply := fun reply => if_neg fun h => hv h.2
  unfold SendsArgv
  cases hf : redisvFormatCommand (cStr c.parts.text) with
  | error e =>
    refine ⟨fun h => ?_, nofun⟩
    obtain ⟨sent, hs, -⟩ := h true
    rw [hsend, w_redisCommand, hf] at hs
    cases hs
  | ok argv =>
    refine ⟨fun h => ?_, fun h reply => ?_⟩
    · obtain ⟨sent, hs, -, ha⟩ := h true
      rw [hsend, w_redisCommand, hf] at hs
      obtain rfl : [argv] = sent := Except.ok.inj hs
      rw [ha argv List.mem_cons_self]
    · obtain rfl : argv = c.parts.argv := Except.ok.inj h
      rw [hsend, w_redisCommand, hf]
      cases reply with
      | true => exact ⟨_, rfl, List.cons_ne_nil _ _, fun a ha => List.mem_singleton.1 ha⟩
      | false => exact ⟨_, rfl, List.cons_ne_nil _ _, by simp⟩

/-- Only key and values that are plain words arrive as they are. -/
theorem sendsArgv_iff (c : Command) (hv : c.parts.values ≠ []) : c.SendsArgv ↔ c.Plain := by
  rw [Command.sendsArgv_iff_format hv]
  exact ⟨Command.plain_of_format hv, Command.format_of_plain hv⟩

def lpushsOne : Command := .lpushs [107] [[97], [98, percent]]

theorem sendsArgv_lpushs : lpushsOne.parts.values ≠ [] ∧ (lpushsOne.SendsArgv ↔ lpushsOne.Plain) :=
  ⟨by decide, sendsArgv_iff lpushsOne (by decide)⟩

/-- A value with a space becomes two, one with a `%` reads an argument that is not there. -/
theorem sadds_space : ¬ (Command.sadds [107] [[97, space, 98]]).SendsArgv ∧
    (Command.sadds [107] [[97, space, 98]]).send true = .ok [[[83, 65, 68, 68], [107], [97], [98]]] ∧
    (Command.sadds [107] [[percent, 115]]).send true = .error .noArgument := by
  have h : (Command.sadds [107] [[97, space, 98]]).send true = .ok [[[83, 65, 68, 68], [107], [97], [98]]] := by decide
  refine ⟨fun hs => ?_, h, by decide⟩
  obtain ⟨sent, hsent, -, ha⟩ := hs true
  rw [h] at hsent
  obtain rfl := Except.ok.inj hsent
  exact absurd (ha _ List.mem_cons_self) (by decide)

end RedisCommand

end GlobalServer

import GlobalServer.Lib.Decimal
import GlobalServer.Lib.Separated

/-!
# Replies with pairs

`hgetall`, `RedisReplyParser::GetMap`, `zrangewithscores` and
`zrevrangewithscores` read the elements of an array two by two into a map, each
from a string stream. They check the reply's type first and throw at the end
what they have found wrong.
-/

namespace GlobalServer.RedisReply

/-- `redisReply` by its type. Only an array has elements. -/
inductive Reply where
  | string (str : List UInt8)
  | array (element : List Reply)
  | integer (integer : Int)
  | nil
  | status (str : List UInt8)
  | error (str : List UInt8)

namespace Reply

/-- `std::string(str, len)` -/
def str : Reply → List UInt8
  | string str => str
  | status str => str
  | error str => str
  | _ => []

def element : Reply → List Reply
  | array element => element
  | _ => []

def isArray : Reply → Bool
  | array _ => true
  | _ => false

end Reply

/-- What `>>` reads into a `T`, and what the whole text stands for. -/
structure Stream (T : Type) where
  extract : List UInt8 → T
  whole : List UInt8 → T

/-- `std::string` -/
def Stream.string : Stream (List UInt8) := { extract := Separated.firstWord Decimal.isSpace, whole := id }

/-- The pairs that have been inserted into `values`, and what the `RedisException` that is thrown says. -/
structure Result (T1 T2 : Type) where
  inserted : List (T1 × T2)
  error : Option (List UInt8)

def M_ERR_NOT_DEFINED : List UInt8 := "wrong type".toUTF8.toList

def M_ERR_REDIS_REPLY_NULL : List UInt8 := "redis reply is null".toUTF8.toList

section
variable {T1 T2 : Type} (s1 : Stream T1) (s2 : Stream T2)

/-- The loop over the elements; `none` where it reads behind the last. -/
def pairs : List Reply → Option (List (T1 × T2))
  | [] => some []
  | [_] => none
  | k :: v :: element => (pairs element).map fun ps => (s1.extract k.str, s2.extract v.str) :: ps

/-- A reply as three of the functions go through it. -/
def collect (reply : Reply) : Option (Result T1 T2) :=
  match reply with
  | .error str => some { inserted := [], error := some str }
  | reply =>
    if !reply.isArray then some { inserted := [], error := some M_ERR_NOT_DEFINED }
    else (pairs s1 s2 reply.element).map fun ps => { inserted := ps, error := none }

/-- `hgetall`; `errstr` is that of the connection, which is closed when there is no reply. -/
def hgetall (errstr : List UInt8) : Option Reply → Option (Result T1 T2)
  | none => some { inserted := [], error := some errstr }
  | some reply => collect s1 s2 reply

def getMap : Option Reply → Option (Result T1 T2)
  | none => some { inserted := [], error := some M_ERR_REDIS_REPLY_NULL }
  | some reply => collect s1 s2 reply

def zrangewithscores (errstr : List UInt8) : Option Reply → Option (Result T1 T2)
  | none => some { inserted := [], error := some errstr }
  | some reply => collect s1 s2 reply

/-- `zrevrangewithscores`, in which an array is the wrong type. -/
def zrevrangewithscores (errstr : List UInt8) : Option Reply → Option (Result T1 T2)
  | none => some { inserted := [], error := some errstr }
  | some (.error str) => some { inserted := [], error := some str }
  | some reply =>
    if reply.isArray then some { inserted := [], error := some M_ERR_NOT_DEFINED }
    else (pairs s1 s2 reply.element).map fun ps => { inserted := ps, error := none }

end

/-- The elements of a reply with these pairs of strings. -/
def strings (kvs : List (List UInt8 × List UInt8)) : List Reply := kvs.flatMap fun p => [.string p.1, .string p.2]

section
variable {T1 T2 : Type} (s1 : Stream T1) (s2 : Stream T2)

/-- A reply is read as it should be: its pairs whole, everything that is no array with an exception, and never behind
the end. -/
structure Meets (f : Option Reply → Option (Result T1 T2)) (reply : Reply) : Prop where
  pairs : ∀ kvs, reply = .array (strings kvs) →
    f (some reply) = some { inserted := kvs.map fun p => (s1.whole p.1, s2.whole p.2), error := none }
  throws : reply.isArray = false → ∃ what, f (some reply) = some { inserted := [], error := some what }
  inside : f (some reply) ≠ none

/-- An array has an even number of elements, and `>>` reads its strings whole. -/
def Readable (reply : Reply) : Prop :=
  reply.isArray = true → reply.element.length % 2 = 0 ∧ ∀ kvs, reply.element = strings kvs →
    ∀ p ∈ kvs, s1.extract p.1 = s1.whole p.1 ∧ s2.extract p.2 = s2.whole p.2

variable {s1 s2}

theorem pairs_strings (kvs : List (List UInt8 × List UInt8)) :
    pairs s1 s2 (strings kvs) = some (kvs.map fun p => (s1.extract p.1, s2.extract p.2)) := by
  induction kvs with
  | nil => rfl
  | cons p kvs ih =>
    have hs : strings (p :: kvs) = .string p.1 :: .string p.2 :: strings kvs := rfl
    rw [hs, pairs, ih]
    rfl

theorem pairs_eq_none_iff : ∀ element : List Reply, pairs s1 s2 element = none ↔ element.length % 2 ≠ 0
  | [] => by simp [pairs]
  | [_] => by simp [pairs]
  | _ :: _ :: element => by
    rw [pairs, Option.map_eq_none_iff, pairs_eq_none_iff element, List.length_cons, List.length_cons]
    omega

theorem collect_array (element : List Reply) : collect s1 s2 (.array element) =
    (pairs s1 s2 element).map fun ps => { inserted := ps, error := none } := rfl

theorem collect_throws (s1 : Stream T1) (s2 : Stream T2) {reply : Reply} (h : reply.isArray = false) :
    ∃ what, collect s1 s2 reply = some { inserted := [], error := some what } := by
  cases reply with
  | array => cases h
  | error str => exact ⟨str, rfl⟩
  | string | integer | nil | status => exact ⟨M_ERR_NOT_DEFINED, rfl⟩

theorem meets_collect_iff {f : Option Reply → Option (Result T1 T2)} (hf : ∀ r, f (some r) = collect s1 s2 r)
    (reply : Reply) : Meets s1 s2 f reply ↔ Readable s1 s2 reply := by
  cases ha : reply.isArray with
  | false =>
    have hn : ∀ element, reply ≠ .array element := by
      rintro element rfl
      cases ha
    refine iff_of_true ⟨fun kvs he => absurd he (hn _), fun _ => ?_, ?_⟩ fun h => ?_
    · rw [hf]
      exact collect_throws s1 s2 ha
    · obtain ⟨what, hw⟩ := collect_throws s1 s2 ha
      rw [hf, hw]
      simp
    · rw [ha] at h
      cases h
  | true =>
    obtain ⟨element, rfl⟩ : ∃ element, reply = .array element := by
      cases reply with
      | array element => exact ⟨element, rfl⟩
      | _ => cases ha
    have hnone : collect s1 s2 (.array element) ≠ none ↔ element.length % 2 = 0 := by
      rw [collect_array, Ne, Option.map_eq_none_iff, pairs_eq_none_iff, not_not]
    have hpairs : ∀ kvs, collect s1 s2 (.array (strings kvs)) =
        some { inserted := kvs.map fun p => (s1.whole p.1, s2.whole p.2), error := none } ↔
        ∀ p ∈ kvs, s1.extract p.1 = s1.whole p.1 ∧ s2.extract p.2 = s2.whole p.2 := by
      intro kvs
      rw [collect_array, pairs_strings, Option.map_some]
      simp [List.map_inj_left]
    constructor
    · intro h _
      refine ⟨hnone.mp (hf _ ▸ h.inside), fun kvs he => ?_⟩
      obtain rfl : element = strings kvs := he
      exact (hpairs kvs).mp (hf _ ▸ h.pairs kvs rfl)
    · intro h
      obtain ⟨hlen, hwhole⟩ := h rfl
      refine ⟨fun kvs he => ?_, nofun, ?_⟩
      · cases he
        rw [hf]
        exact (hpairs kvs).mpr (hwhole kvs rfl)
      · rw [hf]
        exact hnone.mpr hlen

theorem zrevrangewithscores_array (errstr : List UInt8) (element : List Reply) :
    zrevrangewithscores s1 s2 errstr (some (.array element)) =
      some { inserted := [], error := some M_ERR_NOT_DEFINED } := rfl

theorem zrevrangewithscores_other (errstr : List UInt8) {reply : Reply} (h : reply.isArray = false)
    (he : ∀ str, reply ≠ .error str) :
    zrevrangewithscores s1 s2 errstr (some reply) = some { inserted := [], error := none } := by
  cases reply with
  | array => cases h
  | error str => exact absurd rfl (he str)
  | string | integer | nil | status => rfl

theorem orders_agree_iff (errstr : List UInt8) (reply : Reply) :
    zrevrangewithscores s1 s2 errstr (some reply) = collect s1 s2 reply ↔ ∃ str, reply = .error str := by
  by_cases he : ∃ str, reply = .error str
  · refine iff_of_true ?_ he
    obtain ⟨str, rfl⟩ := he
    rfl
  · refine iff_of_false (fun h => ?_) he
    cases ha : reply.isArray with
    | false =>
      rw [zrevrangewithscores_other errstr ha fun str hs => he ⟨str, hs⟩] at h
      obtain ⟨what, hw⟩ := collect_throws s1 s2 ha
      rw [← h] at hw
      cases hw
    | true =>
      cases reply with
      | array element =>
        rw [zrevrangewithscores_array, collect_array] at h
        obtain ⟨ps, -, hp⟩ := Option.map_eq_some_iff.mp h.symm
        cases hp
      | _ => cases ha

theorem meets_error {f : Option Reply → Option (Result T1 T2)} {str : List UInt8}
    (hf : f (some (.error str)) = some { inserted := [], error := some str }) : Meets s1 s2 f (.error str) :=
  ⟨nofun, fun _ => ⟨str, hf⟩, by simp [hf]⟩

end

/-- The four functions make the same of a reply, and what they should. -/
structure Agree {T1 T2 : Type} (s1 : Stream T1) (s2 : Stream T2) (errstr : List UInt8) (reply : Reply) : Prop where
  getMap : getMap s1 s2 (some reply) = hgetall s1 s2 errstr (some reply)
  zrange : zrangewithscores s1 s2 errstr (some reply) = hgetall s1 s2 errstr (some reply)
  zrevrange : zrevrangewithscores s1 s2 errstr (some reply) = hgetall s1 s2 errstr (some reply)
  meets : Meets s1 s2 (hgetall s1 s2 errstr) reply

/-- Three of the functions read the readable replies as they should; the fourth agrees with them on errors alone. -/
theorem pairReplies_iff {T1 T2 : Type} (s1 : Stream T1) (s2 : Stream T2) (errstr : List UInt8) (reply : Reply) :
    (Meets s1 s2 (hgetall s1 s2 errstr) reply ↔ Readable s1 s2 reply) ∧
    (Meets s1 s2 (getMap s1 s2) reply ↔ Readable s1 s2 reply) ∧
    (Meets s1 s2 (zrangewithscores s1 s2 errstr) reply ↔ Readable s1 s2 reply) ∧
    (Agree s1 s2 errstr reply ↔ ∃ str, reply = .error str) := by
  refine ⟨meets_collect_iff (fun _ => rfl) reply, meets_collect_iff (fun _ => rfl) reply,
    meets_collect_iff (fun _ => rfl) reply, ?_⟩
  constructor
  · intro h
    exact (orders_agree_iff errstr reply).mp h.zrevrange
  · intro h
    obtain ⟨str, rfl⟩ := h
    exact ⟨rfl, rfl, rfl, meets_error rfl⟩

theorem extract_string_iff (str : List UInt8) :
    Stream.string.extract str = Stream.string.whole str ↔ ∀ b ∈ str, Decimal.isSpace b = false :=
  Separated.firstWord_eq_self_iff

/-- The members with scores of `zrevrangewithscores` are taken for the wrong type. -/
theorem zrevrange_refuses : ¬ Agree Stream.string Stream.string [] (.array [.string [97], .string [49]]) := by
  intro h
  have he := h.zrevrange
  cases he

end GlobalServer.RedisReply

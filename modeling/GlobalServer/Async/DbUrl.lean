import GlobalServer.Base.StringUtil
import GlobalServer.Async.AsyncMgr

/-!
# The addresses of databases

A request names its database as host:port:user:passwd:db, which `proccss`
takes apart with `StringUtil::Split`.
-/

namespace GlobalServer.Async

open StringUtil

/-- The components of an address. -/
structure DbUrl where
  host : String
  port : String
  user : String
  passwd : String
  db : String
  noColon : ∀ v ∈ [host, port, user, passwd, db], ∀ c ∈ v.toList, c ∉ [':']

namespace DbUrl

def values (u : DbUrl) : List String := [u.host, u.port, u.user, u.passwd, u.db]

def text (u : DbUrl) : String := ":".intercalate u.values

end DbUrl

/-- Both managers answer a request for the address with an error. -/
structure Reported (url : String) : Prop where
  mysql : ∀ (pool : MysqlPool) (req : MysqlReq), req.url = url →
    mysqlProccss pool req = some { transId := req.transId, errCode := -1, codeWhat := "illegal url" }
  redis : ∀ {Reply : Type} (pool : RedisPool Reply) (req : RedisReq), req.url = url →
    redisProccss pool req = some { transId := req.transId, errCode := -1, codeWhat := "illegal url" }

/-! ## Splitting at one character -/

/-- The last piece counts only when there is something in it. -/
def dropLastEmpty (ps : List (List Char)) : List (List Char) := if ps.getLast? = some [] then ps.dropLast else ps

theorem dropLastEmpty_cons {ps : List (List Char)} (h : ps ≠ []) (p : List Char) :
    dropLastEmpty (p :: ps) = p :: dropLastEmpty ps := by
  obtain ⟨q, qs, rfl⟩ := List.exists_cons_of_ne_nil h
  unfold dropLastEmpty
  rw [List.getLast?_cons_cons, List.dropLast_cons_of_ne_nil (List.cons_ne_nil q qs)]
  split <;> rfl

theorem pieces_splitOn (c : Char) (n : Nat) : ∀ source : List Char, source.length ≤ n →
    pieces word [] [c] source = some ((dropLastEmpty (source.splitOn c)).map word) := by
  induction n with
  | zero =>
    intro source h
    rw [List.length_eq_zero_iff.mp (Nat.le_zero.mp h), pieces_last (by simp)]
    rfl
  | succ n ih =>
    intro source h
    by_cases hc : ∃ x ∈ source, x ∈ [c]
    · obtain ⟨p, d, q, rfl, hp, hd⟩ := exists_first hc
      obtain rfl := List.mem_singleton.mp hd
      have hq : q.length ≤ n := by
        simp only [List.length_append, List.length_cons] at h
        omega
      have hpc : d ∉ p := fun hm => hp d hm hd
      have happ : p ++ d :: q = p ++ [d] ++ q := by simp
      rw [List.splitOn_append_cons_self_of_not_mem hpc, dropLastEmpty_cons (List.splitOn_ne_nil d q), happ,
        pieces_append hp (List.cons_ne_nil d []), ih q hq, ite_word]
      rfl
    · have hc' : ∀ x ∈ source, x ∉ [c] := fun x hx hxc => hc ⟨x, hx, hxc⟩
      have hns : c ∉ source := fun hm => hc' c hm List.mem_cons_self
      rw [pieces_last hc', List.splitOn_eq_singleton hns]
      by_cases h0 : source = []
      · simp [h0, dropLastEmpty]
      · simp [h0, dropLastEmpty]

theorem split_singleton (source : String) (c : Char) :
    StringUtil.split source (String.singleton c) = some (split source c) := by
  unfold StringUtil.split split
  rw [String.toList_singleton, pieces_splitOn c _ _ (Nat.le_refl _), Option.map_some, List.map_map]
  rfl

/-! ## Addresses -/

theorem reported_of_length {url : String} (h : (split url ':').length ≠ 5) : Reported url := by
  constructor
  · intro pool req he
    unfold mysqlProccss
    split
    · rename_i hs
      rw [he] at hs
      simp [hs] at h
    · rfl
  · intro Reply pool req he
    unfold redisProccss
    split
    · rename_i hs
      rw [he] at hs
      simp [hs] at h
    · rfl

theorem length_of_reported {url : String} (h : Reported url) : (split url ':').length ≠ 5 := by
  intro hl
  have hm := h.mysql { getConnection := fun _ _ _ _ _ => none, errorMsg := "" }
    { type := .E_QUERY, transId := 0, url, sql := "" } rfl
  unfold mysqlProccss at hm
  split at hm
  · simp at hm
  · rename_i hn
    match hs : split url ':', hl with
    | [host, port, user, passwd, db], _ => exact hn host port user passwd db hs

namespace DbUrl

variable (u : DbUrl)

theorem split_text : split u.text ':' =
    (if u.db = "" then [u.host, u.port, u.user, u.passwd] else u.values).map fun v => String.ofList (word v.toList) := by
  have hc := u.noColon
  simp only [List.forall_mem_cons] at hc
  obtain ⟨h1, h2, h3, h4, h5, -⟩ := hc
  have hs : StringUtil.split u.text (String.singleton ':') = some (split u.text ':') := split_singleton _ _
  have ht : u.text.toList = u.host.toList ++ [':'] ++ (u.port.toList ++ [':'] ++ (u.user.toList ++ [':'] ++
      (u.passwd.toList ++ [':'] ++ u.db.toList))) := by
    simp [text, values]
  have hn : [':'] ≠ [] := List.cons_ne_nil _ _
  unfold StringUtil.split at hs
  rw [String.toList_singleton, ht, pieces_append h1 hn, pieces_append h2 hn, pieces_append h3 hn, pieces_append h4 hn,
    pieces_last h5] at hs
  simp only [ite_word, Option.map_some, Option.some.injEq] at hs
  rw [← hs]
  by_cases h0 : u.db = ""
  · simp [h0]
  · simp [h0, values]

theorem recovered_iff : (Reported u.text ∨ split u.text ':' = u.values) ↔
    u.db = "" ∨ ∀ v ∈ u.values, ∀ c ∈ v.toList, isspace c = false := by
  by_cases h0 : u.db = ""
  · refine iff_of_true (.inl (reported_of_length ?_)) (.inl h0)
    rw [split_text, if_pos h0]
    simp
  · have hr : ¬ Reported u.text := by
      intro h
      apply length_of_reported h
      rw [split_text, if_neg h0]
      rfl
    have hw : ∀ v : String, String.ofList (word v.toList) = v ↔ ∀ c ∈ v.toList, isspace c = false := by
      intro v
      rw [← word_eq_self_iff, ← String.toList_inj, String.toList_ofList]
    rw [or_iff_right hr, or_iff_right h0, split_text, if_neg h0]
    simp only [values, List.map_cons, List.map_nil, List.cons.injEq, and_true, hw, List.forall_mem_cons,
      List.not_mem_nil, false_implies, implies_true]

end DbUrl

/-- `Split` takes joined fields apart, and the managers find the components of an address, under these conditions. -/
theorem split_inverts_iff (separator : String) (hs : separator ≠ "") (fields : List String) (u : DbUrl) :
    (StringUtil.split (separator.intercalate fields) separator = some fields ↔
      (∀ f ∈ fields, ∀ c ∈ f.toList, c ∉ separator.toList ∧ isspace c = false) ∧ fields.getLast? ≠ some "") ∧
    ((Reported u.text ∨ split u.text ':' = u.values) ↔
      u.db = "" ∨ ∀ v ∈ u.values, ∀ c ∈ v.toList, isspace c = false) :=
  ⟨split_intercalate_iff hs fields, u.recovered_iff⟩

/-- The fields of a text come back, the last one not being empty. -/
theorem split_inverts_words : StringUtil.split "10.0.0.1:3306:root" ":" = some ["10.0.0.1", "3306", "root"] := by
  have u : DbUrl := { host := "", port := "", user := "", passwd := "", db := "", noColon := by simp }
  have h := (split_inverts_iff ":" (by decide) ["10.0.0.1", "3306", "root"] u).1.mpr (by simp [isspace])
  exact h

/-- An empty field at the end is not in the result. -/
theorem split_drops_last : ¬ (∀ separator : String, separator ≠ "" → ∀ fields : List String,
    (∀ f ∈ fields, ¬ separator.toList <:+: f.toList) →
      StringUtil.split (separator.intercalate fields) separator = some fields) := by
  intro h
  have he := h ":" (by decide) [""] (by decide)
  rw [split_intercalate_iff (by decide)] at he
  exact he.2 rfl

end GlobalServer.Async

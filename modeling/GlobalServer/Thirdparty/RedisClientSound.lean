import GlobalServer.Thirdparty.RedisClient
import GlobalServer.Thirdparty.RedisReaderSound

/-!
# A reply answers its own command

Between two commands a context without an error has written everything, and
has read whatever the server has sent. One that gives no reply has an error for
good and its connection is given up, so that nobody reads what comes late.
-/

namespace GlobalServer.RedisReader

open Bytes Resp

/-! ## What is written -/

theorem countDigits_eq (v : Nat) : countDigits v = (Decimal.ofNat v).length := by
  have step : ∀ n, 10 ≤ n → (Decimal.ofNat n).length = (Decimal.ofNat (n / 10)).length + 1 := by
    intro n hn
    rw [Decimal.ofNat_of_le hn, List.length_append]
    rfl
  have one : ∀ n, n < 10 → (Decimal.ofNat n).length = 1 := by
    intro n hn
    rw [Decimal.ofNat_of_lt hn]
    rfl
  fun_induction countDigits v with
  | case1 v h => exact (one v h).symm
  | case2 v h1 h2 => rw [step v (by omega), one _ (by omega)]
  | case3 v h1 h2 h3 => rw [step v (by omega), step _ (by omega), one _ (by omega)]
  | case4 v h1 h2 h3 h4 => rw [step v (by omega), step _ (by omega), step _ (by omega), one _ (by omega)]
  | case5 v h1 h2 h3 h4 ih =>
    have he : v / 10 / 10 / 10 / 10 = v / 10000 := by omega
    rw [ih, step v (by omega), step (v / 10) (by omega), step (v / 10 / 10) (by omega),
      step (v / 10 / 10 / 10) (by omega), he]

/-- The assertion of `redisFormatSdsCommandArgv`. -/
theorem length_formatArgv (argv : List (List UInt8)) : (formatArgv argv).length = totlen argv := by
  have args : ∀ l : List (List UInt8),
      (l.flatMap fun arg => 36 :: (Decimal.ofNat arg.length ++ crlf) ++ arg ++ crlf).length =
      (l.map fun arg => bulklen arg.length).sum := by
    intro l
    induction l with
    | nil => rfl
    | cons arg l ih =>
      rw [List.flatMap_cons, List.length_append, ih, List.map_cons, List.sum_cons, bulklen, countDigits_eq]
      simp only [List.length_append, List.length_cons, crlf, List.length_nil]
      omega
  rw [formatArgv, totlen, List.length_append, args, countDigits_eq]
  simp only [List.length_append, List.length_cons, crlf, List.length_nil]
  omega

theorem formatArgv_eq (argv : List (List UInt8)) : formatArgv argv = encode (.array (argv.map .bulk)) := by
  have args : ∀ l : List (List UInt8), (l.flatMap fun arg => 36 :: (Decimal.ofNat arg.length ++ crlf) ++ arg ++ crlf) =
      encodeAll (l.map .bulk) := by
    intro l
    induction l with
    | nil => simp
    | cons arg l ih =>
      rw [List.flatMap_cons, ih, List.map_cons, encodeAll_cons]
      simp [encode]
  rw [formatArgv, args]
  simp [encode]

theorem Command.bytes_eq (cmd : Command) : cmd.bytes = encode (.array (cmd.argv.map .bulk)) := formatArgv_eq cmd.argv

theorem Command.obj_eq (cmd : Command) :
    obj (.array (cmd.argv.map .bulk)) = .array cmd.argv.length (cmd.argv.map (.string .string)) := by
  rw [obj_array, List.length_map, List.map_map]
  rfl

theorem Command.within (cmd : Command) : Within 8 (.array (cmd.argv.map .bulk)) := by
  have hargs : ∀ l : List (List UInt8), l.length ≤ (l.map fun arg => bulklen arg.length).sum ∧
      ∀ arg ∈ l, arg.length ≤ (l.map fun arg => bulklen arg.length).sum := by
    intro l
    induction l with
    | nil => simp
    | cons arg l ih =>
      rw [List.map_cons, List.sum_cons, List.length_cons, bulklen]
      refine ⟨by omega, fun arg' h => ?_⟩
      rcases List.mem_cons.mp h with rfl | h
      · omega
      · have := ih.2 arg' h
        omega
  obtain ⟨h1, h2⟩ := hargs cmd.argv
  have hshort := cmd.short
  unfold totlen at hshort
  rw [within_array, List.length_map]
  refine ⟨by omega, fun v hv => ?_⟩
  obtain ⟨arg, hm, rfl⟩ := List.mem_map.mp hv
  have := h2 arg hm
  exact within_bulk.mpr (by omega)

/-- However a stream of commands is cut, the parser finds the arguments of each; and each is as long as it should be. -/
theorem commands_read_back (cmds : List Command) (es : List Event) (f : List UInt8)
    (hfed : fed es ++ f = cmds.flatMap Command.bytes) (hshort : Reader.create.Short es) :
    (∀ cmd ∈ cmds, cmd.bytes.length = totlen cmd.argv) ∧
      ∃ r k, Reader.create.replies es =
          .ok (r, (cmds.take k).map fun cmd => .array cmd.argv.length (cmd.argv.map (.string .string))) ∧
        (f = [] → ∃ r', r.getReply =
          .ok (r', (cmds[k]?).map fun cmd => .array cmd.argv.length (cmd.argv.map (.string .string)), true)) := by
  have henc : ∀ l : List Command, l.flatMap Command.bytes = encodeAll (l.map fun cmd => .array (cmd.argv.map .bulk)) := by
    intro l
    induction l with
    | nil => simp
    | cons cmd l ih => rw [List.flatMap_cons, ih, List.map_cons, encodeAll_cons, cmd.bytes_eq]
  have hfits : ∀ v ∈ cmds.map fun cmd => Value.array (cmd.argv.map .bulk), Within 8 v := by
    intro v hv
    obtain ⟨cmd, -, rfl⟩ := List.mem_map.mp hv
    exact cmd.within
  refine ⟨fun cmd _ => length_formatArgv cmd.argv, ?_⟩
  obtain ⟨r, k, h1, -, h2⟩ := replies_spec _ hfits es f (by rw [hfed, henc]) hshort
  refine ⟨r, k, ?_, ?_⟩
  · rw [h1, ← List.map_take, List.map_map]
    congr 2
    exact List.map_congr_left fun cmd _ => cmd.obj_eq
  · intro hf
    obtain ⟨r', h⟩ := h2 hf
    refine ⟨r', ?_⟩
    rw [h, List.getElem?_map]
    cases cmds[k]? with
    | none => rfl
    | some cmd => rw [Option.map_some, Option.map_some, Option.map_some, cmd.obj_eq]

theorem short_set : totlen [[83, 69, 84], [107], []] < 2 ^ 31 := by
  rw [← length_formatArgv]
  decide

theorem short_ping : totlen [[80, 73, 78, 71]] < 2 ^ 31 := by
  rw [← length_formatArgv]
  decide

/-- One of the arguments is empty. -/
def setCommand : Command := { argv := [[83, 69, 84], [107], []], short := short_set }

def pingCommand : Command := { argv := [[80, 73, 78, 71]], short := short_ping }

def twoCommands : List Command := [setCommand, pingCommand]

theorem commands_read_back_two :
    (∀ cmd ∈ twoCommands, cmd.bytes.length = totlen cmd.argv) ∧
      ∃ r k, Reader.create.replies [.feed ((twoCommands.flatMap Command.bytes).take 9), .get,
            .feed ((twoCommands.flatMap Command.bytes).drop 9), .get] =
          .ok (r, (twoCommands.take k).map fun cmd => .array cmd.argv.length (cmd.argv.map (.string .string))) ∧
        (([] : List UInt8) = [] → ∃ r', r.getReply =
          .ok (r', (twoCommands[k]?).map fun cmd => .array cmd.argv.length (cmd.argv.map (.string .string)), true)) :=
  commands_read_back twoCommands _ [] (by simp [fed]) (short_of_fed (by decide))

/-! ## What is read -/

section
variable {server : Nat → Tag → Value}

def size (issued : List (Tag × Command)) : Nat := (issued.map fun x => x.2.bytes.length).sum

/-- Of the commands that have been issued all but the last are whole, and that one is if all of it is there. -/
theorem whole_concat : ∀ (issued : List (Tag × Command)) (n : Nat) (tag : Tag) (cmd : Command),
    whole (size issued + n) (issued ++ [(tag, cmd)]) =
      issued.map Prod.fst ++ if cmd.bytes.length ≤ n then [tag] else []
  | [], n, tag, cmd => by
    rw [List.nil_append, whole, size, List.map_nil, List.sum_nil, Nat.zero_add, whole]
    rfl
  | (tag', cmd') :: issued, n, tag, cmd => by
    have hsize : size ((tag', cmd') :: issued) = cmd'.bytes.length + size issued := List.sum_cons
    rw [List.cons_append, whole, if_pos (by omega), hsize, Nat.add_assoc, Nat.add_sub_cancel_left, whole_concat]
    rfl

theorem whole_size : ∀ issued : List (Tag × Command), whole (size issued) issued = issued.map Prod.fst
  | [] => rfl
  | (tag, cmd) :: issued => by
    have hsize : size ((tag, cmd) :: issued) = cmd.bytes.length + size issued := List.sum_cons
    rw [whole, if_pos (by omega), hsize, Nat.add_sub_cancel_left, whole_size issued]
    rfl

/-- Of what the server sends on the connection this is left to read. -/
structure Left (server : Nat → Tag → Value) (c : Context) (f : List UInt8) : Prop where
  got : c.got + f.length = (c.stream server).length
  left : (c.stream server).drop c.got = f

/-- Nothing is left to write or to read. -/
structure Ready (server : Nat → Tag → Value) (c : Context) : Prop where
  err : c.err = none
  obuf : c.obuf = []
  reader : Good [] [] c.reader
  pos : c.reader.pos < 1024
  wire : c.wire.length = size c.issued
  left : Left server c []

/-- A reply that the parser takes and the buffer holds. -/
structure Answer (v : Value) : Prop where
  fits : Within 8 v
  short : (encode v).length + 1024 < 2 ^ 31

theorem ready_init (conn : Nat) : Ready server (Context.init conn) := by
  refine ⟨rfl, rfl, .create (by simp), Nat.zero_lt_succ 1023, rfl, ⟨?_, ?_⟩⟩
  · simp [Context.init, Context.stream, whole]
  · simp [Context.init, Context.stream, whole]

theorem Good.await {r : Reader} (h : Good [] [] r) {v : Value} (hf : Within 8 v) : Good [v] (encode v) r := by
  refine ⟨h.sound, h.reply, by simpa using hf, ?_⟩
  cases h.between with
  | idle hst hw => exact .idle hst (by simpa using hw)
  | started _ hst hw =>
    refine .midst rfl (.item hst rfl .root ?_)
    simpa using hw
  | midst h0 => cases h0

theorem Good.nil_fed {r : Reader} {f : List UInt8} (h : Good [] f r) : r.rest = [] ∧ f = [] := by
  cases h.between with
  | idle _ hw => exact List.append_eq_nil_iff.mp hw
  | started _ _ hw => exact List.append_eq_nil_iff.mp hw
  | midst h0 => cases h0

theorem setError_err (c : Context) (type : CtxErr) (str : List UInt8) : (c.setError type str).err ≠ none := by
  simp [Context.setError]

/-- Behind a call the bytes that have been read do not pile up. -/
theorem getReply_pos {r r' : Reader} {reply : Option Obj} (hpos : r.pos < 1024)
    (h : r.getReply = .ok (r', reply, true)) : r'.pos < 1024 := by
  unfold Reader.getReply at h
  split at h
  · cases h
  · split at h
    · cases h
      exact hpos
    · generalize Reader.processItems _ = res at h
      rcases res with _ | r₁
      · cases h
      · have he : r₁.emit = (r', reply, true) := Except.ok.inj h
        have hemit : r₁.emit.2.2 = true → r₁.emit.1.pos < 1024 := by
          intro hok
          unfold Reader.emit at hok ⊢
          split at hok
          · cases hok
          · rename_i herr
            rw [if_neg herr]
            dsimp only
            split <;> split
            · exact Nat.zero_lt_succ _
            · exact Nat.zero_lt_succ _
            · exact Nat.not_le.mp ‹_›
            · exact Nat.not_le.mp ‹_›
        rw [he] at hemit
        exact hemit rfl

/-! ## One command -/

theorem writeAll_spec (sends : List Send) : ∀ (c : Context), c.err = none → ∀ out, c.writeAll sends = some out →
    (out.2 = true ∧ out.1 = { c with obuf := [], wire := c.wire ++ c.obuf }) ∨
      (out.2 = false ∧ out.1.err ≠ none) := by
  induction sends with
  | nil =>
    intro c he out h
    unfold Context.writeAll at h
    rw [he] at h
    simp only [Option.isSome_none, Bool.false_eq_true, if_false] at h
    split at h
    · rename_i ho
      cases h
      refine .inl ⟨rfl, ?_⟩
      rw [ho, List.append_nil, ← ho]
    · cases h
  | cons x sends ih =>
    intro c he out h
    unfold Context.writeAll at h
    rw [he] at h
    simp only [Option.isSome_none, Bool.false_eq_true, if_false] at h
    split at h
    · rename_i ho
      cases h
      refine .inl ⟨rfl, ?_⟩
      rw [ho, List.append_nil, ← ho]
    · cases x with
      | wrote n =>
        rcases ih { c with obuf := c.obuf.drop n, wire := c.wire ++ c.obuf.take n } he out h with ⟨h1, h2⟩ | h1
        · refine .inl ⟨h1, ?_⟩
          rw [h2]
          simp only [List.append_assoc, List.take_append_drop]
        · exact .inr h1
      | interrupted => exact ih _ he out h
      | failed what =>
        cases h
        exact .inr ⟨rfl, setError_err _ _ _⟩

theorem getReplyFromReader_spec {c : Context} {rs : List Value} {f : List UInt8} (h : Good rs f c.reader) :
    ∃ reader reply, (c.getReplyFromReader = .ok ({ c with reader }, reply, true) ∧
      c.reader.getReply = .ok (reader, reply, true)) ∧
      ((reply = none ∧ Good rs f reader ∧ (rs ≠ [] → f ≠ [])) ∨
        ∃ v rs', rs = v :: rs' ∧ reply = some (obj v) ∧ Good rs' f reader) := by
  obtain ⟨reader, reply, hget, hcase⟩ := h.getReply
  refine ⟨reader, reply, ⟨?_, hget⟩, hcase⟩
  rw [Context.getReplyFromReader, hget]
  rfl

theorem Left.read {c : Context} {f : List UInt8} (h : Left server c f) (reader : Reader) (n : Nat) :
    Left server { c with reader, got := c.got + (f.take n).length } (f.drop n) := by
  have hgot := h.got
  have hleft := h.left
  refine ⟨?_, ?_⟩
  · show c.got + (f.take n).length + (f.drop n).length = (c.stream server).length
    have := congrArg List.length (List.take_append_drop n f)
    rw [List.length_append] at this
    omega
  · show (c.stream server).drop (c.got + (f.take n).length) = f.drop n
    rw [← List.drop_drop, hleft]
    calc f.drop (f.take n).length = (f.take n ++ f.drop n).drop (f.take n).length := by rw [List.take_append_drop]
      _ = f.drop n := List.drop_left

/-- A context in the midst of the reply `v`, of which `f` has not been read. -/
structure Awaits (server : Nat → Tag → Value) (v : Value) (c : Context) (f : List UInt8) : Prop where
  err : c.err = none
  obuf : c.obuf = []
  reader : Good [v] f c.reader
  pos : c.reader.pos < 1024
  room : c.reader.buf.length + f.length < 2 ^ 31
  wire : c.wire.length = size c.issued
  left : Left server c f

/-- The connection is the same, and what has been issued on it. -/
def SameConn (c c' : Context) : Prop := c'.conn = c.conn ∧ c'.issued = c.issued

theorem readReply_spec {v : Value} (recvs : List Recv) : ∀ {c : Context} {f : List UInt8}, Awaits server v c f →
    ∃ out, c.readReply server recvs = .ok out ∧ ∀ c' reply, out = some (c', reply) →
      (reply = none ∧ c'.err ≠ none) ∨ (reply = some (obj v) ∧ Ready server c' ∧ SameConn c c') := by
  induction recvs with
  | nil =>
    intro c f h
    refine ⟨none, ?_, by simp⟩
    unfold Context.readReply
    rw [h.err]
    rfl
  | cons x recvs ih =>
    intro c f h
    unfold Context.readReply
    rw [h.err]
    simp only [Option.isSome_none, Bool.false_eq_true, if_false]
    -- one more look at the parser, and the rest of the reads
    have next : ∀ {c₁ : Context} {f₁ : List UInt8}, Awaits server v c₁ f₁ → SameConn c c₁ → ∃ out,
        (c₁.replyOr fun c => c.readReply server recvs) = .ok out ∧ ∀ c' reply, out = some (c', reply) →
          (reply = none ∧ c'.err ≠ none) ∨ (reply = some (obj v) ∧ Ready server c' ∧ SameConn c c') := by
      intro c₁ f₁ h₁ hsame
      obtain ⟨reader, reply, hget, hcase⟩ := getReplyFromReader_spec h₁.reader
      obtain ⟨hget, hread⟩ := hget
      have hpos := getReply_pos h₁.pos hread
      have hbuf := getReply_buf hread
      have hroom := h₁.room
      unfold Context.replyOr
      rw [hget]
      simp only [Except.ok_bind]
      rcases hcase with ⟨rfl, hg, -⟩ | ⟨v', rs', hv, rfl, hg⟩
      · have h₂ : Awaits server v { c₁ with reader } f₁ :=
          ⟨h₁.err, h₁.obuf, hg, hpos, by show reader.buf.length + _ < _; omega, h₁.wire, ⟨h₁.left.got, h₁.left.left⟩⟩
        obtain ⟨out, h3, h4⟩ := ih h₂
        refine ⟨out, h3, fun c' reply hout => (h4 c' reply hout).imp_right fun h5 => ⟨h5.1, h5.2.1, ?_⟩⟩
        exact ⟨h5.2.2.1.trans hsame.1, h5.2.2.2.trans hsame.2⟩
      · obtain ⟨rfl, rfl⟩ := List.cons.inj hv
        refine ⟨_, rfl, ?_⟩
        rintro c' reply ⟨⟩
        obtain ⟨-, rfl⟩ := hg.nil_fed
        exact .inr ⟨rfl, ⟨h₁.err, h₁.obuf, hg, hpos, h₁.wire, ⟨h₁.left.got, h₁.left.left⟩⟩, hsame⟩
    cases x with
    | data n =>
      have hbytes : ((c.stream server).drop c.got).take n = f.take n := by rw [h.left.left]
      have hfeed : c.reader.feed (f.take n) = ({ c.reader with buf := c.reader.buf ++ f.take n }, true) :=
        if_neg (by simp [h.reader.sound.err])
      have hroom := h.room
      have hlen : (c.reader.buf ++ f.take n).length + (f.drop n).length = c.reader.buf.length + f.length := by
        conv => rhs; rw [← List.take_append_drop n f]
        rw [List.length_append, List.length_append, Nat.add_assoc]
      have hgood : Good [v] (f.drop n) (c.reader.feed (f.take n)).1 := by
        apply Good.feed
        · rw [List.take_append_drop]
          exact h.reader
        · rw [hfeed]
          show (c.reader.buf ++ f.take n).length < _
          omega
      rw [hfeed] at hgood
      simp only [Context.bufferRead, hbytes, hfeed, if_true, Bool.not_true, Bool.false_eq_true, if_false]
      refine next ⟨h.err, h.obuf, hgood, h.pos, ?_, h.wire, h.left.read _ n⟩ ⟨rfl, rfl⟩
      show (c.reader.buf ++ f.take n).length + _ < _
      omega
    | interrupted => exact next h ⟨rfl, rfl⟩
    | failed what =>
      refine ⟨_, rfl, ?_⟩
      rintro c' reply ⟨⟩
      exact .inl ⟨rfl, setError_err _ _ _⟩
    | closed =>
      refine ⟨_, rfl, ?_⟩
      rintro c' reply ⟨⟩
      exact .inl ⟨rfl, setError_err _ _ _⟩

theorem Ready.awaits {c c' : Context} (hc : Ready server c) {tag : Tag} {cmd : Command}
    (hs : Answer (server c.conn tag)) (hg : Good [] [] c'.reader) (hpos : c'.reader.pos < 1024) (he : c'.err = none)
    (ho : c'.obuf = []) (hconn : c'.conn = c.conn) (hissued : c'.issued = c.issued ++ [(tag, cmd)])
    (hwire : c'.wire = c.wire ++ cmd.bytes) (hgot : c'.got = c.got) :
    Awaits server (server c.conn tag) c' (encode (server c.conn tag)) := by
  have hlen : c'.wire.length = size c.issued + cmd.bytes.length := by
    rw [hwire, List.length_append, hc.wire]
  have hold : c.stream server = encodeAll ((c.issued.map Prod.fst).map (server c.conn)) := by
    rw [Context.stream, hc.wire, whole_size]
  have hstream : c'.stream server = c.stream server ++ encode (server c.conn tag) := by
    rw [hold, Context.stream, hlen, hissued, hconn, whole_concat, if_pos (Nat.le_refl _), List.map_append,
      encodeAll_append, List.map_singleton, encodeAll_cons, encodeAll_nil, List.append_nil]
  have hread : c.got = (c.stream server).length := hc.left.got
  have hshort := hs.short
  obtain ⟨hrest, -⟩ := hg.nil_fed
  refine ⟨he, ho, hg.await hs.fits, hpos, ?_, ?_, ⟨?_, ?_⟩⟩
  · have hb := congrArg List.length hrest
    rw [Reader.rest, List.length_drop, List.length_nil] at hb
    omega
  · rw [hlen, hissued, size, size, List.map_append, List.sum_append, List.map_singleton, List.sum_singleton]
  · rw [hstream, hgot, hread, List.length_append]
  · rw [hstream, hgot, hread, List.drop_left]

/-- On a context that is ready: the reply to this command, and the context is ready again; or an error. -/
theorem commandArgv_spec {c : Context} (hc : Ready server c) {tag : Tag} (hs : Answer (server c.conn tag)) (cmd : Command)
    (t : Try) : ∃ out, c.commandArgv server tag cmd t = .ok out ∧ ∀ c' reply, out = some (c', reply) →
      (reply = none ∧ c'.err ≠ none) ∨
        (reply = some (obj (server c.conn tag)) ∧ Ready server c' ∧ c'.conn = c.conn) := by
  obtain ⟨reader, reply, ⟨hget, hread⟩, hcase⟩ := getReplyFromReader_spec (c := c.appendCommand tag cmd) hc.reader
  rcases hcase with ⟨rfl, hg, -⟩ | ⟨v', rs', h0, -⟩
  swap
  · cases h0
  have hpos := getReply_pos hc.pos hread
  unfold Context.commandArgv Context.getReply Context.replyOr
  rw [hget]
  simp only [Except.ok_bind, Bool.not_true, Bool.false_eq_true, if_false]
  generalize hc₁ : ({ c.appendCommand tag cmd with reader } : Context) = c₁
  have he₁ : c₁.err = none := by rw [← hc₁]; exact hc.err
  have hw₁ : c₁.wire = c.wire := by rw [← hc₁]; rfl
  have ho₁ : c₁.obuf = cmd.bytes := by
    rw [← hc₁]
    show c.obuf ++ cmd.bytes = _
    rw [hc.obuf, List.nil_append]
  cases hwa : c₁.writeAll t.sends with
  | none => exact ⟨none, rfl, by simp⟩
  | some p =>
    obtain ⟨c₂, ok⟩ := p
    rcases writeAll_spec t.sends c₁ he₁ _ hwa with ⟨hok, h2⟩ | ⟨hok, h2⟩
    · simp only at hok h2
      subst hok
      have hawaits : Awaits server (server c.conn tag) c₂ (encode (server c.conn tag)) := by
        refine @Ready.awaits server c c₂ hc tag cmd hs ?_ ?_ ?_ ?_ ?_ ?_ ?_ ?_
        · rw [h2, ← hc₁]; exact hg
        · rw [h2, ← hc₁]; exact hpos
        · rw [h2]; exact he₁
        · rw [h2]
        · rw [h2, ← hc₁]; rfl
        · rw [h2, ← hc₁]; rfl
        · rw [h2, hw₁, ho₁]
        · rw [h2, ← hc₁]; rfl
      have hconn : c₂.conn = c.conn := by rw [h2, ← hc₁]; rfl
      obtain ⟨out, h5, h6⟩ := readReply_spec t.recvs hawaits
      refine ⟨out, h5, fun c' reply hout => (h6 c' reply hout).imp_right fun h7 => ⟨h7.1, h7.2.1, ?_⟩⟩
      exact h7.2.2.1.trans hconn
    · simp only at hok
      subst hok
      refine ⟨_, rfl, ?_⟩
      rintro c' reply ⟨⟩
      exact .inl ⟨rfl, h2⟩

/-! ## Requests -/

/-- What the pool has is ready. -/
def Pool.Ready (server : Nat → Tag → Value) (p : Pool) : Prop := ∀ c, p.pooled = some c → RedisReader.Ready server c

theorem Pool.ready_none (p : Pool) : ({ p with pooled := none } : Pool).Ready server := by
  intro c h
  cases h

theorem Pool.ready_some (p : Pool) {c : Context} (hc : RedisReader.Ready server c) :
    ({ p with pooled := some c } : Pool).Ready server := by
  intro c' h
  cases h
  exact hc

variable (hserver : ∀ conn tag, Answer (server conn tag))
include hserver

theorem setUp_spec : ∀ (setup : List Setup) {c : Context} (i : Nat) (tries : List Try), Ready server c →
    ∃ out, setUp server c i setup tries = .ok out ∧ ∀ c', out = some (some c') → Ready server c'
  | [], c, i, tries, hc => ⟨some (some c), rfl, by rintro c' ⟨⟩; exact hc⟩
  | s :: setup, c, i, tries, hc => by
    obtain ⟨out, h1, h2⟩ := commandArgv_spec hc (hserver c.conn (.setup i)) s.command
      (tries.headD { sends := [], recvs := [] })
    rw [setUp, h1]
    simp only [Except.ok_bind]
    rcases out with _ | ⟨c₁, _ | x⟩
    · exact ⟨none, rfl, by simp⟩
    · exact ⟨some none, rfl, by simp⟩
    · rcases h2 c₁ (some x) rfl with ⟨h0, -⟩ | ⟨-, hready, -⟩
      · cases h0
      · dsimp only
        split
        · exact setUp_spec setup (i + 1) tries.tail hready
        · exact ⟨some none, rfl, by simp⟩

theorem getConnection_spec (setup : List Setup) {p : Pool} (hp : p.Ready server) (o : Open) :
    ∃ out, getConnection server setup p o = .ok out ∧ ∀ p' c, out = some (p', c) →
      p'.Ready server ∧ ∀ c', c = some c' → Ready server c' := by
  unfold getConnection
  cases hpool : p.pooled with
  | some c =>
    refine ⟨_, rfl, ?_⟩
    rintro p' c' ⟨⟩
    exact ⟨hp, by rintro c' ⟨⟩; exact hp c hpool⟩
  | none =>
    by_cases hconn : o.connects = true
    · obtain ⟨out, h1, h2⟩ := setUp_spec hserver setup 0 o.tries (ready_init p.opened)
      simp only [openConnection, hconn, if_true, h1, Except.ok_bind]
      rcases out with _ | c
      · exact ⟨none, rfl, by simp⟩
      · refine ⟨_, rfl, ?_⟩
        rintro p' c' ⟨⟩
        have hc : ∀ c', c = some c' → Ready server c' := by
          rintro c' rfl
          exact h2 c' rfl
        exact ⟨hc, hc⟩
    · simp only [openConnection, hconn]
      refine ⟨_, rfl, ?_⟩
      rintro p' c' ⟨⟩
      exact ⟨by rintro c' ⟨⟩, by rintro c' ⟨⟩⟩

theorem tryCommand_spec {c : Context} (hc : Ready server c) (i : Nat) (cmd : Command) (t : Try) :
    ∃ out, c.commandArgv server (.request i) cmd t = .ok out ∧ ∀ c' x, out = some (c', some x) →
      Ready server c' ∧ ∃ conn, x = obj (server conn (.request i)) := by
  obtain ⟨out, h1, h2⟩ := commandArgv_spec hc (hserver c.conn (.request i)) cmd t
  refine ⟨out, h1, fun c' x hout => ?_⟩
  rcases h2 c' (some x) hout with ⟨h0, -⟩ | ⟨hx, hready, -⟩
  · cases h0
  · exact ⟨hready, c.conn, Option.some.inj hx⟩

theorem command_spec (setup : List Setup) {p : Pool} {c : Context} (hc : Ready server c) (i : Nat) (k : Call) :
    ∃ out, command server setup p c i k = .ok out ∧ ∀ p' o, out = some (p', o) →
      p'.Ready server ∧ ∀ x, o = some x → ∃ conn, x = obj (server conn (.request i)) := by
  obtain ⟨out, h1, h2⟩ := tryCommand_spec hserver hc i k.command k.first
  unfold command
  rw [h1]
  simp only [Except.ok_bind]
  rcases out with _ | ⟨c₁, _ | x⟩
  · exact ⟨none, rfl, by simp⟩
  · -- the connection is given up
    obtain ⟨out, h3, h4⟩ := getConnection_spec hserver setup p.ready_none k.again
    simp only [h3, Except.ok_bind]
    rcases out with _ | ⟨p₂, _ | c₂⟩
    · exact ⟨none, rfl, by simp⟩
    · exact ⟨_, rfl, by rintro p' o ⟨⟩; exact ⟨(h4 p₂ none rfl).1, by simp⟩⟩
    · have hc₂ : Ready server c₂ := (h4 p₂ (some c₂) rfl).2 c₂ rfl
      obtain ⟨out, h5, h6⟩ := tryCommand_spec hserver hc₂ i k.command k.second
      simp only [h5, Except.ok_bind]
      rcases out with _ | ⟨c₃, _ | x⟩
      · exact ⟨none, rfl, by simp⟩
      · exact ⟨_, rfl, by rintro p' o ⟨⟩; exact ⟨p₂.ready_none, by simp⟩⟩
      · obtain ⟨h7, h8⟩ := h6 c₃ x rfl
        exact ⟨_, rfl, by rintro p' o ⟨⟩; exact ⟨p₂.ready_some h7, by rintro y ⟨⟩; exact h8⟩⟩
  · obtain ⟨h3, h4⟩ := h2 c₁ x rfl
    exact ⟨_, rfl, by rintro p' o ⟨⟩; exact ⟨p.ready_some h3, by rintro y ⟨⟩; exact h4⟩⟩

theorem request_spec (setup : List Setup) {p : Pool} (hp : p.Ready server) (i : Nat) (k : Call) :
    ∃ out, request server setup p i k = .ok out ∧ ∀ p' o, out = some (p', o) →
      p'.Ready server ∧ ∀ x, o = some x → ∃ conn, x = obj (server conn (.request i)) := by
  obtain ⟨out, h1, h2⟩ := getConnection_spec hserver setup hp k.opening
  unfold request
  rw [h1]
  simp only [Except.ok_bind]
  rcases out with _ | ⟨p₁, _ | c⟩
  · exact ⟨none, rfl, by simp⟩
  · exact ⟨_, rfl, by rintro p' o ⟨⟩; exact ⟨(h2 p₁ none rfl).1, by simp⟩⟩
  · exact command_spec hserver setup ((h2 p₁ (some c) rfl).2 c rfl) i k

theorem session_spec (setup : List Setup) : ∀ (calls : List Call) {p : Pool} (i : Nat), p.Ready server →
    ∃ l, session server setup p i calls = .ok l ∧ l.length ≤ calls.length ∧
      ∀ (j : Nat) (x : Obj), l[j]? = some (some x) → ∃ conn, x = obj (server conn (.request (i + j)))
  | [], p, i, _ => ⟨[], rfl, Nat.le_refl 0, by simp⟩
  | k :: calls, p, i, hp => by
    obtain ⟨out, h1, h2⟩ := request_spec hserver setup hp i k
    rw [session, h1]
    simp only [Except.ok_bind]
    rcases out with _ | ⟨p₁, o⟩
    · exact ⟨[], rfl, Nat.zero_le _, by simp⟩
    · obtain ⟨hp₁, ho⟩ := h2 p₁ o rfl
      obtain ⟨l, h3, h4, h5⟩ := session_spec setup calls (i + 1) hp₁
      refine ⟨o :: l, by simp only [h3]; rfl, Nat.succ_le_succ h4, fun j x hj => ?_⟩
      cases j with
      | zero => exact ho x (Option.some.inj hj)
      | succ j =>
        have := h5 j x hj
        rwa [Nat.add_right_comm] at this

/-- Over any requests on one key, with whatever errors, partial writes, cut and late replies there are: no request
faults, and each that has a reply has the server's reply to its own command. -/
theorem session_replies (setup : List Setup) (calls : List Call) :
    ∃ l, session server setup { pooled := none, opened := 0 } 0 calls = .ok l ∧ l.length ≤ calls.length ∧
      ∀ (i : Nat) (x : Obj), l[i]? = some (some x) → ∃ conn, x = obj (server conn (.request i)) := by
  obtain ⟨l, h1, h2, h3⟩ := session_spec hserver setup calls 0 (p := { pooled := none, opened := 0 }) (by rintro c ⟨⟩)
  refine ⟨l, h1, h2, fun i x hi => ?_⟩
  have := h3 i x hi
  rwa [Nat.zero_add] at this

end

/-- `AUTH` is answered with a status, and the requests differently on the first connection and on others. -/
def answers (conn : Nat) : Tag → Value
  | .setup _ => .status [79, 75]
  | .request i =>
    if conn = 0 then .array [.integer 0, .bulk [97]]
    else if i = 0 then .array [.integer 1, .bulk []]
    else .nullBulk

theorem answer_answers (conn : Nat) (tag : Tag) : Answer (answers conn tag) := by
  have h1 : Answer (.status [79, 75]) := ⟨by simp [lf], by decide⟩
  have h2 : Answer (.array [.integer 0, .bulk [97]]) := ⟨by simp [within_array], by decide⟩
  have h3 : Answer (.array [.integer 1, .bulk []]) := ⟨by simp [within_array], by decide⟩
  have h4 : Answer .nullBulk := ⟨by simp [Within], by decide⟩
  cases tag with
  | setup i => exact h1
  | request i =>
    show Answer (if conn = 0 then _ else if i = 0 then _ else _)
    split_ifs
    · exact h2
    · exact h3
    · exact h4

/-- On the first connection the reply is cut off behind two of its bytes; it is opened anew, with a password, the command
is written in two parts, and the next request stays on that connection. -/
def cutOff : List Call :=
  let auth : Try := { sends := [.wrote 14], recvs := [.data 9] }
  [{ command := pingCommand
     opening := { connects := true, tries := [auth] }
     first := { sends := [.wrote 14], recvs := [.data 2, .failed []] }
     again := { connects := true, tries := [auth] }
     second := { sends := [.wrote 5, .interrupted, .wrote 9], recvs := [.data 3, .interrupted, .data 99] } },
   { command := setCommand
     opening := { connects := false, tries := [] }
     first := { sends := [.wrote 99], recvs := [.data 99] }
     again := { connects := false, tries := [] }
     second := { sends := [], recvs := [] } }]

theorem session_replies_cutOff :
    ∃ l, session answers [.auth pingCommand] { pooled := none, opened := 0 } 0 cutOff = .ok l ∧ l.length ≤ cutOff.length ∧
      ∀ (i : Nat) (x : Obj), l[i]? = some (some x) → ∃ conn, x = obj (answers conn (.request i)) :=
  session_replies answer_answers [.auth pingCommand] cutOff

end GlobalServer.RedisReader

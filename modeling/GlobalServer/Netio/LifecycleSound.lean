import GlobalServer.Netio.Lifecycle

/-!
# Every socket is announced once and dismissed once

What is kept by every step is said in four parts: of the descriptor, of the
calls, of the bytes and of the flag. `_Close` is called while the flag is not
yet what it is to be, and needs the first three only.
-/

namespace GlobalServer.Lifecycle

open Bytes

/-! ## The order of the calls -/

theorem ordered_nil : Ordered [] := ⟨false, 0, List.nil_prefix⟩

theorem ordered_singleton (error : Bool) : Ordered [.onConnected error] :=
  ⟨error, 0, List.prefix_append _ _⟩

theorem Ordered.head {callback : Callback} {l : List Callback} (h : Ordered (callback :: l)) :
    ∃ error, callback = .onConnected error := by
  obtain ⟨error, n, h⟩ := h
  exact ⟨error, (List.cons_prefix_cons.mp h).1⟩

theorem Ordered.eq_cons {l : List Callback} (h : Ordered l) (hl : l ≠ []) (hd : .onDisconnected ∉ l) :
    ∃ error n, l = .onConnected error :: List.replicate n .onReceiveData := by
  obtain ⟨error, n, h⟩ := h
  cases l with
  | nil => exact absurd rfl hl
  | cons callback l =>
    obtain ⟨hc, ht⟩ := List.cons_prefix_cons.mp h
    rcases List.prefix_concat_iff.mp ht with rfl | ht
    · simp at hd
    · obtain ⟨-, ht⟩ := List.prefix_replicate_iff.mp ht
      exact ⟨error, l.length, by rw [hc, ← ht]⟩

theorem Ordered.onReceiveData {l : List Callback} (h : Ordered l) (hl : l ≠ []) (hd : .onDisconnected ∉ l) :
    Ordered (l ++ [.onReceiveData]) := by
  obtain ⟨error, n, rfl⟩ := h.eq_cons hl hd
  refine ⟨error, n + 1, ?_⟩
  rw [List.cons_append, ← List.replicate_succ', List.cons_prefix_cons]
  exact ⟨rfl, List.prefix_append _ _⟩

theorem Ordered.onDisconnected {l : List Callback} (h : Ordered l) (hl : l ≠ []) (hd : .onDisconnected ∉ l) :
    Ordered (l ++ [.onDisconnected]) := by
  obtain ⟨error, n, rfl⟩ := h.eq_cons hl hd
  exact ⟨error, n, List.prefix_rfl⟩

/-! ## What a close does -/

theorem SocketImpl.close_gone (impl : SocketImpl) : impl.close.Gone := by
  unfold SocketImpl.close
  split
  · cases impl.nonblock <;> cases impl.epoll <;> simp [SocketImpl.Gone]
  · rename_i h
    simp only [not_and, Bool.not_eq_false] at h
    cases hfd : impl.fd with
    | false => exact .inl hfd
    | true => exact .inr (h hfd)

theorem SocketImpl.Gone.served {impl : SocketImpl} (h : impl.Gone) : impl.Served := by
  intro hfd hf
  simp [SocketImpl.Gone, hfd, hf] at h

namespace Conn

variable {c : Conn} {calls : Calls}

theorem reported_iff (h : Ordered c.callbacks) : c.Reported ↔ c.callbacks ≠ [] := by
  cases hl : c.callbacks with
  | nil => simp [Reported, hl]
  | cons callback l =>
    rw [hl] at h
    obtain ⟨error, rfl⟩ := h.head
    cases error <;> simp [Reported, hl]

theorem shutdown_eq (c : Conn) : ∃ l, c.shutdown = { c with shutdowns := l } ∧
    (l = c.shutdowns ∨ c.writeFailed = false ∧ l = c.shutdowns ++ [(c.promised, c.given)]) := by
  unfold shutdown
  by_cases hf : c.writeFailed = true
  · exact ⟨c.shutdowns, by rw [if_pos hf], .inl rfl⟩
  · refine ⟨c.shutdowns ++ [(c.promised, c.given)], by rw [if_neg hf], .inr ⟨by simpa using hf, rfl⟩⟩

/-- Neither reported nor about to be -/
def Quiet (c : Conn) : Prop := ¬ c.Reported ∧ c.stage ≠ .started

/-- The descriptor has a thread before anything is posted, and the thread has been asked to close it as often as it is
marked. -/
structure Bound (c : Conn) : Prop where
  closeFlag : c.impl.closeFlag = true → c.impl.fd = true ∧ c.impl.epoll = true
  nonblock : c.impl.epoll = true → c.impl.nonblock = true
  closereqs : c.impl.closereqs = c.impl.closeFlag.toNat
  connector : c.connector = true → c.impl.epoll = true
  blocking : ¬ c.Reported → c.connector = false → c.impl.fd = true → c.impl.nonblock = false
  writing : c.socket.writing = true → c.impl.epoll = true
  reading : c.reading = true → c.impl.epoll = true
  cutting : c.cutting = true → c.impl.epoll = true ∧ c.impl.fd = true ∧ c.Reported

structure Told (c : Conn) : Prop where
  order : Ordered c.callbacks
  fd : c.impl.fd = true → .onDisconnected ∉ c.callbacks
  gone : c.Reported → c.impl.fd = false → c.callbacks.count .onDisconnected = 1
  waiting : c.stage = .waiting → ¬ c.Reported
  started : c.stage = .started → ¬ c.Reported ∧ c.connector = true ∧ c.impl.fd = true
  announced : c.stage = .announced → c.Reported

structure Stream (c : Conn) : Prop where
  sane1 : c.socket.msgbuffer1.Sane
  sane2 : c.socket.msgbuffer2.Sane
  stream : c.writeFailed = false → c.given ++ c.socket.unsent = c.accepted
  inflight : c.socket.writing = true → c.socket.msgbuffer1.rest ≠ []
  posted : c.socket.posted = c.socket.inFlight
  promised : c.promised <+: c.accepted
  flushed : ∀ p ∈ c.shutdowns, p.1 <+: p.2
  quiet : c.Quiet → c.accepted = [] ∧ c.writeFailed = false ∧ c.socket.writing = false

/-- With no write in flight nothing is left, unless one has failed. -/
def Idled (c : Conn) : Prop := c.writeFailed = false → c.socket.writing = false → c.socket.unsent = []

structure Flags (c : Conn) : Prop where
  close : c.socket.flag = .close → c.impl.Gone ∧ c.socket.writing = false
  stop : c.socket.flag = .stop → c.impl.Gone → c.socket.writing = true
  start : c.socket.flag = .start → ¬ c.Quiet ∧ c.promised = []
  failed : c.writeFailed = true → c.socket.flag = .close
  promise : c.socket.flag = .stop → c.socket.writing = true → c.impl.fd = true → c.promised = c.accepted
  ended : c.ended = true → c.impl.Gone ∨ c.socket.writing = true ∧ c.socket.flag = .stop

structure Inv (c : Conn) : Prop where
  bound : c.Bound
  told : c.Told
  stream : c.Stream
  flags : c.Flags
  idled : c.Idled

theorem closeSocket_eq (c : Conn) : ∃ l, c.closeSocket = { c with
      socket := c.socket.closeSocket
      impl := if c.socket.flag ≠ .close ∧ c.socket.writing = false then c.impl.close else c.impl
      ended := true
      shutdowns := l } ∧
    (l = c.shutdowns ∨
      c.socket.writing = false ∧ c.writeFailed = false ∧ l = c.shutdowns ++ [(c.promised, c.given)]) := by
  unfold closeSocket
  by_cases hc : c.socket.flag ≠ .close ∧ c.socket.writing = false
  · simp only [if_pos hc]
    split
    · exact ⟨c.shutdowns, rfl, .inl rfl⟩
    · obtain ⟨l, hl, hsh⟩ := shutdown_eq { c with
        socket := c.socket.closeSocket, impl := c.impl.close, ended := true }
      refine ⟨l, hl, hsh.imp_right fun h => ⟨hc.2, h⟩⟩
  · simp only [if_neg hc, if_true]
    exact ⟨c.shutdowns, rfl, .inl rfl⟩

/-- A socket that has been reported has a thread to close it; another is closed at once if it has none. -/
theorem Bound.close_cases (h : c.Bound) (hs : c.Reported → c.impl.Served) :
    c.impl.Gone ∧ c.impl.close = c.impl ∨
    (c.impl.fd = true ∧ c.impl.closeFlag = false ∧ c.impl.epoll = true ∧
      c.impl.close = { c.impl with closeFlag := true, closereqs := c.impl.closereqs + 1 }) ∨
    (¬ c.Reported ∧ c.connector = false ∧ c.impl.closeFlag = false ∧
      c.impl.close = { c.impl with fd := false, nonblock := true }) := by
  unfold SocketImpl.close SocketImpl.Gone
  cases hfd : c.impl.fd with
  | false => simp
  | true =>
    cases hf : c.impl.closeFlag with
    | true => simp
    | false =>
      cases he : c.impl.epoll with
      | true => simp [h.nonblock he, hfd, he]
      | false =>
        have hr : ¬ c.Reported := fun hr => by simp [hs hr hfd hf] at he
        have hc : c.connector = false := by
          rw [← Bool.not_eq_true]
          intro hc
          simp [h.connector hc] at he
        simp [hr, hc, h.blocking hr hc hfd, hf, he]

theorem Bound.closeSocket (h : c.Bound) (hs : c.Reported → c.impl.Served) : c.closeSocket.Bound := by
  obtain ⟨l, heq, -⟩ := closeSocket_eq c
  rw [heq]
  split
  · rename_i hc
    rcases h.close_cases hs with ⟨-, hi⟩ | ⟨hfd, hf, he, hi⟩ | ⟨hr, hconn, hf, hi⟩
    · rw [hi]
      exact { h with writing := by simpa using h.writing }
    · rw [hi]
      refine { h with
        closeFlag := fun _ => ⟨hfd, he⟩
        closereqs := ?_
        writing := by simpa using h.writing }
      simp [h.closereqs, hf]
    · rw [hi]
      refine { h with
        closeFlag := by simp [hf], nonblock := fun _ => rfl, blocking := by simp, cutting := ?_
        writing := by simpa using h.writing }
      intro hcut
      exact absurd (h.cutting hcut).2.2 hr
  · exact { h with writing := by simpa using h.writing }

theorem Told.closeSocket (h : c.Told) (hb : c.Bound) (hs : c.Reported → c.impl.Served) : c.closeSocket.Told := by
  obtain ⟨l, heq, -⟩ := closeSocket_eq c
  rw [heq]
  split
  · rcases hb.close_cases hs with ⟨-, hi⟩ | ⟨-, -, -, hi⟩ | ⟨hr, hconn, -, hi⟩
    · rw [hi]
      exact { h with }
    · rw [hi]
      exact { h with }
    · rw [hi]
      refine { h with fd := by simp, gone := fun hr' => absurd hr' hr, started := fun hst => ?_ }
      simp [(h.started hst).2.1] at hconn
  · exact { h with }

theorem Stream.closeSocket (h : c.Stream) (hi : c.Idled) : c.closeSocket.Stream := by
  obtain ⟨l, heq, hl⟩ := closeSocket_eq c
  rw [heq]
  refine { h with
    sane1 := by simpa using h.sane1, sane2 := by simpa using h.sane2, stream := by simpa using h.stream
    inflight := by simpa using h.inflight, posted := by simpa [TcpBaseSocket.inFlight] using h.posted, flushed := ?_
    quiet := fun hq => by simpa using h.quiet hq }
  rcases hl with rfl | ⟨hw, hf, rfl⟩
  · exact h.flushed
  · intro p hp
    rcases List.mem_append.mp hp with hp | hp
    · exact h.flushed p hp
    · have hs := h.stream hf
      rw [hi hf hw, List.append_nil] at hs
      simp only [List.mem_singleton] at hp
      subst hp
      rw [hs]
      exact h.promised

theorem Flags.of_closeSocket (hclose : c.socket.flag = .close → c.impl.Gone ∧ c.socket.writing = false)
    (hfailed : c.writeFailed = true → c.socket.writing = false)
    (hprom : c.socket.writing = true → c.impl.fd = true → c.promised = c.accepted) : c.closeSocket.Flags := by
  obtain ⟨l, heq, -⟩ := closeSocket_eq c
  rw [heq]
  by_cases hc : c.socket.flag = .close
  · obtain ⟨hg, hw⟩ := hclose hc
    have hs : c.socket.closeSocket = c.socket := by rw [TcpBaseSocket.closeSocket, if_pos hc]
    simp only [hs, hc, ne_eq, not_true_eq_false, false_and, if_false]
    exact {
      close := fun _ => ⟨hg, hw⟩
      stop := by simp [hc]
      start := by simp [hc]
      failed := fun _ => hc
      promise := by simp [hc]
      ended := fun _ => .inl hg }
  · cases hw : c.socket.writing with
    | true =>
      have hs : c.socket.closeSocket = { c.socket with flag := .stop } := by simp [TcpBaseSocket.closeSocket, hc, hw]
      simp only [hs, Bool.true_eq_false, and_false, if_false]
      exact {
        close := by simp
        stop := fun _ _ => hw
        start := by simp
        failed := fun hf => by simp [hw] at hfailed; simp [hfailed] at hf
        promise := fun _ _ => hprom hw
        ended := fun _ => .inr ⟨hw, rfl⟩ }
    | false =>
      have hs : c.socket.closeSocket = { c.socket with flag := .close } := by simp [TcpBaseSocket.closeSocket, hc, hw]
      have hg := c.impl.close_gone
      simp only [hs, hc, ne_eq, not_false_eq_true, true_and, if_true]
      exact {
        close := fun _ => ⟨hg, hw⟩
        stop := by simp
        start := by simp
        failed := fun _ => rfl
        promise := by simp
        ended := fun _ => .inl hg }

theorem inv_closeSocket (hb : c.Bound) (ht : c.Told) (hst : c.Stream) (hi : c.Idled) (hs : c.Reported → c.impl.Served)
    (hclose : c.socket.flag = .close → c.impl.Gone ∧ c.socket.writing = false)
    (hfailed : c.writeFailed = true → c.socket.writing = false)
    (hprom : c.socket.writing = true → c.impl.fd = true → c.promised = c.accepted) : c.closeSocket.Inv := by
  refine ⟨hb.closeSocket hs, ht.closeSocket hb hs, hst.closeSocket hi, .of_closeSocket hclose hfailed hprom, ?_⟩
  obtain ⟨l, heq, -⟩ := closeSocket_eq c
  rw [heq]
  intro hf hw
  simpa using hi hf (by simpa using hw)

theorem Inv.failed (h : c.Inv) (hf : c.writeFailed = true) : c.socket.writing = false :=
  (h.flags.close (h.flags.failed hf)).2

theorem Inv.closeSocket (h : c.Inv) (hc : c.socket.flag = .close) : c.closeSocket.Inv := by
  obtain ⟨hg, hw⟩ := h.flags.close hc
  refine inv_closeSocket h.bound h.told h.stream h.idled (fun _ => hg.served) h.flags.close h.failed ?_
  intro hw'
  simp [hw] at hw'

theorem Inv.postClose (h : c.Inv) (hs : c.Reported → c.impl.Served) : c.postClose.Inv := by
  unfold Conn.postClose
  have hp : (if c.impl.fd then c.accepted else c.promised) <+: c.accepted := by
    split
    · exact List.prefix_rfl
    · exact h.stream.promised
  have hfd : c.impl.fd = true → (if c.impl.fd then c.accepted else c.promised) = c.accepted := fun hfd => if_pos hfd
  generalize (if c.impl.fd then c.accepted else c.promised) = promised at hp hfd
  have hb : Bound { c with promised } := { h.bound with }
  have ht : Told { c with promised } := { h.told with }
  exact inv_closeSocket hb ht { h.stream with promised := hp } h.idled hs h.flags.close h.failed fun _ => hfd

theorem Inv.sound (h : c.Inv) : c.Sound where
  order := h.told.order
  ended he := (h.flags.ended he).imp_right And.left
  flushed := h.stream.flushed
  disconnected hr hg := by
    have hreqs := h.bound.closereqs
    cases hf : c.impl.closeFlag with
    | true =>
      rw [List.count_eq_zero.mpr (h.told.fd (h.bound.closeFlag hf).1), hreqs, hf]
      rfl
    | false =>
      have hfd : c.impl.fd = false := by
        rcases hg with hfd | hf'
        · exact hfd
        · simp [hf] at hf'
      rw [h.told.gone hr hfd, hreqs, hf]
      rfl

theorem not_sound_closeSocket (hb : c.Bound) (ht : c.Told) (hc : c.socket.flag ≠ .close) (hw : c.socket.writing = false)
    (hr : c.Reported) (hs : ¬ c.impl.Served) : ¬ c.closeSocket.Sound := by
  intro h
  obtain ⟨l, heq, -⟩ := closeSocket_eq c
  rw [heq, if_pos ⟨hc, hw⟩] at h
  have hd := h.disconnected hr c.impl.close_gone
  simp only [SocketImpl.Served, not_forall, Bool.not_eq_true] at hs
  obtain ⟨hfd, hf, he⟩ := hs
  have hreqs : c.impl.close.closereqs = 0 := by
    rw [← Nat.le_zero]
    unfold SocketImpl.close
    cases c.impl.nonblock <;> simp [hfd, hf, he, hb.closereqs]
  simp only [hreqs, List.count_eq_zero.mpr (ht.fd hfd)] at hd
  cases hd

theorem Inv.not_sound_postClose (h : c.Inv) (hr : c.Reported) (hs : ¬ c.impl.Served) : ¬ c.postClose.Sound := by
  unfold Conn.postClose
  generalize (if c.impl.fd then c.accepted else c.promised) = promised
  have hb : Bound { c with promised } := { h.bound with }
  have ht : Told { c with promised } := { h.told with }
  apply not_sound_closeSocket hb ht ?_ ?_ hr hs
  · intro hc
    exact hs (h.flags.close hc).1.served
  · by_contra hw
    exact hs fun _ _ => h.bound.writing (by simpa using hw)

/-! ## What an operation does -/

theorem post_eq (impl : SocketImpl) (calls : Calls) : ∃ nonblock epoll,
    (impl.post calls).1 = { impl with nonblock, epoll } ∧ (impl.epoll = true → epoll = true) ∧
      (epoll = true → nonblock = true ∨ epoll = impl.epoll ∧ nonblock = impl.nonblock) ∧
      ((impl.post calls).2 = false → epoll = true) := by
  unfold SocketImpl.post
  split
  · exact ⟨impl.nonblock, impl.epoll, rfl, id, fun _ => .inr ⟨rfl, rfl⟩, by simp⟩
  · split
    · exact ⟨impl.nonblock, impl.epoll, rfl, id, fun _ => .inr ⟨rfl, rfl⟩, by simp⟩
    · split
      · exact ⟨true, impl.epoll, rfl, id, fun _ => .inl rfl, by simp⟩
      · exact ⟨true, true, rfl, fun _ => rfl, fun _ => .inl rfl, fun _ => rfl⟩

theorem Bound.post (h : c.Bound) (hr : c.Reported ∨ c.connector = true) (calls : Calls) :
    Bound { c with impl := (c.impl.post calls).1 } := by
  obtain ⟨nonblock, epoll, heq, he, hn, -⟩ := post_eq c.impl calls
  rw [heq]
  exact {
    closeFlag := fun hf => (h.closeFlag hf).imp_right he
    nonblock := fun he' => by
      rcases hn he' with hn | ⟨hep, hn⟩
      · exact hn
      · exact hn.trans (h.nonblock (hep.symm.trans he'))
    closereqs := h.closereqs
    connector := fun hc => he (h.connector hc)
    blocking := fun hr' hc => by
      rcases hr with hr | hc'
      · exact absurd hr hr'
      · simp [hc'] at hc
    writing := fun hw => he (h.writing hw)
    reading := fun hr => he (h.reading hr)
    cutting := fun hc => (h.cutting hc).imp_left he }

theorem Told.post (h : c.Told) (calls : Calls) : Told { c with impl := (c.impl.post calls).1 } := by
  obtain ⟨nonblock, epoll, heq, -⟩ := post_eq c.impl calls
  rw [heq]
  exact { h with }

theorem Flags.post (h : c.Flags) (calls : Calls) : Flags { c with impl := (c.impl.post calls).1 } := by
  obtain ⟨nonblock, epoll, heq, -⟩ := post_eq c.impl calls
  rw [heq]
  exact { h with }

theorem Inv.post (h : c.Inv) (hr : c.Reported ∨ c.connector = true) (calls : Calls) :
    Inv { c with impl := (c.impl.post calls).1 } :=
  ⟨h.bound.post hr calls, h.told.post calls, { h.stream with }, h.flags.post calls, h.idled⟩

theorem post_served (he : c.impl.epoll = true) : (c.impl.post calls).1.Served := by
  obtain ⟨nonblock, epoll, heq, hep, -⟩ := post_eq c.impl calls
  rw [heq]
  exact fun _ _ => hep he

theorem Inv.reading (h : c.Inv) (hr : c.Reported ∨ c.connector = true) (he : (c.impl.post calls).2 = false) :
    Inv { c with impl := (c.impl.post calls).1, reading := true } := by
  have hp := h.post hr calls
  refine ⟨{ hp.bound with reading := fun _ => ?_ }, { hp.told with }, { hp.stream with }, { hp.flags with }, hp.idled⟩
  obtain ⟨nonblock, epoll, heq, -, -, hep⟩ := post_eq c.impl calls
  rw [heq]
  exact hep he

theorem Inv.tryRecvData (h : c.Inv) (hr : c.Reported)
    (hs : (c.impl.post calls).2 = true → (c.impl.post calls).1.Served) : (c.tryRecvData calls).Inv := by
  dsimp only [Conn.tryRecvData]
  split
  · rename_i he
    exact (h.post (.inl hr) calls).postClose fun _ => hs he
  · rename_i he
    exact h.reading (.inl hr) (by simpa using he)

/-! ## Sending -/

theorem Stream.shutdown (h : c.Stream) (hp : c.writeFailed = false → c.promised <+: c.given) : c.shutdown.Stream := by
  obtain ⟨l, heq, hl⟩ := shutdown_eq c
  rw [heq]
  refine { h with flushed := ?_ }
  rcases hl with rfl | ⟨hf, rfl⟩
  · exact h.flushed
  · intro p hp'
    rcases List.mem_append.mp hp' with hp' | hp'
    · exact h.flushed p hp'
    · simp only [List.mem_singleton] at hp'
      subst hp'
      exact hp hf

theorem Stream.promised_given (h : c.Stream) (hf : c.writeFailed = false) (hu : c.socket.unsent = []) :
    c.promised <+: c.given := by
  have hs := h.stream hf
  rw [hu, List.append_nil] at hs
  rw [hs]
  exact h.promised

/-- What is known of a socket when a handler tries to send. -/
structure Sending (c : Conn) : Prop where
  bound : c.Bound
  told : c.Told
  stream : c.Stream
  quiet : ¬ c.Quiet
  writeFailed : c.writeFailed = false
  close : c.socket.flag ≠ .close
  start : c.socket.flag = .start → c.promised = []
  stop : c.socket.flag = .stop → c.impl.fd = true → c.promised = c.accepted
  ended : c.ended = true → c.impl.Gone ∨ c.socket.flag = .stop

theorem Sending.posts (h : c.Sending) : c.Reported ∨ c.connector = true := by
  by_cases hr : c.Reported
  · exact .inl hr
  · have hs : c.stage = .started := by
      by_contra hs
      exact h.quiet ⟨hr, hs⟩
    exact .inr (h.told.started hs).2.1

theorem Sending.inv (h : c.Sending) (hw : c.socket.writing = true) : c.Inv where
  bound := h.bound
  told := h.told
  stream := h.stream
  idled _ hw' := by simp [hw] at hw'
  flags := {
    close := fun hc => absurd hc h.close
    stop := fun _ _ => hw
    start := fun hs => ⟨h.quiet, h.start hs⟩
    failed := fun hf => by simp [h.writeFailed] at hf
    promise := fun hs _ => h.stop hs
    ended := fun he => (h.ended he).imp_right fun hs => ⟨hw, hs⟩ }

theorem Stream.posted_nil (h : c.Stream) (hw : c.socket.writing = false) : c.socket.posted = [] := by
  simpa [TcpBaseSocket.inFlight, hw] using h.posted

theorem Sending.swapBuffers (h : c.Sending) (hw : c.socket.writing = false) :
    Sending { c with socket := c.socket.swapBuffers } := by
  obtain ⟨h1, h2, hu, -⟩ := TcpBaseSocket.swapBuffers_spec h.stream.sane1 h.stream.sane2
  exact {
    bound := { h.bound with writing := by simp [hw] }
    told := { h.told with }
    stream := { h.stream with
      sane1 := h1, sane2 := h2, stream := by rw [hu]; exact h.stream.stream
      inflight := by simp [hw], posted := by simp [TcpBaseSocket.inFlight, hw, h.stream.posted_nil hw]
      quiet := fun hq => absurd hq h.quiet }
    quiet := h.quiet
    writeFailed := h.writeFailed
    close := by simpa using h.close
    start := by simpa using h.start
    stop := by simpa using h.stop
    ended := by simpa using h.ended }

theorem Sending.writing (h : c.Sending) (hw : c.socket.writing = false) (he : (c.impl.post calls).2 = false)
    (h1 : c.socket.msgbuffer1.rest ≠ []) :
    Inv { c with socket := { c.socket.asyncSendSome with writing := true }, impl := (c.impl.post calls).1 } := by
  have hp := h.bound.post h.posts calls
  obtain ⟨nonblock, epoll, heq, -, -, hep⟩ := post_eq c.impl calls
  apply Sending.inv
  · rw [heq] at hp ⊢
    exact {
      bound := { hp with writing := fun _ => hep he }
      told := { h.told with }
      stream := { h.stream with
        inflight := fun _ => h1
        posted := by
          simp only [TcpBaseSocket.asyncSendSome_posted h.stream.sane1, h.stream.posted_nil hw, List.nil_append]
          rfl
        quiet := fun hq => absurd hq h.quiet }
      quiet := h.quiet
      writeFailed := h.writeFailed
      close := h.close
      start := h.start
      stop := h.stop
      ended := h.ended }
  · rfl

theorem failWrite_writeFailed (c : Conn) : c.failWrite.writeFailed = true := by
  obtain ⟨l, heq, -⟩ := closeSocket_eq { c with writeFailed := true }
  rw [failWrite, heq]

theorem inv_failWrite (hb : c.Bound) (ht : c.Told) (hst : Stream { c with writeFailed := true })
    (hc : c.socket.flag ≠ .close) (hw : c.socket.writing = false) (hs : c.Reported → c.impl.Served) :
    c.failWrite.Inv := by
  unfold failWrite
  have hb' : Bound { c with writeFailed := true } := { hb with }
  have ht' : Told { c with writeFailed := true } := { ht with }
  apply inv_closeSocket hb' ht' hst
  · intro hf
    simp at hf
  · exact hs
  · exact fun hc' => absurd hc' hc
  · exact fun _ => hw
  · intro hw'
    simp [hw] at hw'

theorem trySendData_cases (h : c.Stream) (calls : Calls) :
    c.socket.writing = true ∧ c.trySendData calls = (c, true) ∨
    c.socket.writing = false ∧ c.socket.unsent = [] ∧
      c.trySendData calls = ({ c with socket := c.socket.swapBuffers }, false) ∨
    c.socket.writing = false ∧ c.socket.unsent ≠ [] ∧ c.socket.swapBuffers.msgbuffer1.rest ≠ [] ∧
      c.trySendData calls =
        let out := c.impl.post calls
        if out.2 then ({ c with socket := c.socket.swapBuffers, impl := out.1 }.failWrite, false)
        else ({ c with socket := { c.socket.swapBuffers.asyncSendSome with writing := true }, impl := out.1 }, true) := by
  obtain ⟨h1, h2, hu, hz⟩ := TcpBaseSocket.swapBuffers_spec h.sane1 h.sane2
  have hrest := TcpBaseSocket.length_eq_zero h1
  unfold Conn.trySendData
  by_cases hw : c.socket.writing = true
  · rw [if_pos hw]
    exact .inl ⟨hw, rfl⟩
  · rw [if_neg hw, Bool.not_eq_true] at *
    by_cases hl : 0 < c.socket.swapBuffers.msgbuffer1.length
    · have hne : c.socket.swapBuffers.msgbuffer1.rest ≠ [] := fun h0 => Nat.ne_of_gt hl (hrest.mpr h0)
      refine .inr (.inr ⟨hw, ?_, hne, by simp only [if_pos hl]⟩)
      rw [← hu, TcpBaseSocket.unsent]
      simp [hne]
    · have h0 : c.socket.swapBuffers.msgbuffer1.length = 0 := by omega
      refine .inr (.inl ⟨hw, ?_, by simp only [if_neg hl]⟩)
      rw [← hu, TcpBaseSocket.unsent, hrest.mp h0, (TcpBaseSocket.length_eq_zero h2).mp (hz h0)]
      rfl

theorem Sending.trySendData (h : c.Sending) (calls : Calls)
    (hs : c.socket.writing = false → (c.impl.post calls).2 = true → (c.impl.post calls).1.Served) :
    (c.trySendData calls).2 = true ∧ (c.trySendData calls).1.Inv ∨
    (c.trySendData calls).2 = false ∧ (c.trySendData calls).1.Inv ∧ (c.trySendData calls).1.writeFailed = true ∨
    c.socket.writing = false ∧ c.socket.unsent = [] ∧
      c.trySendData calls = ({ c with socket := c.socket.swapBuffers }, false) := by
  rcases trySendData_cases h.stream calls with ⟨hw, heq⟩ | ⟨hw, hu, heq⟩ | ⟨hw, -, hne, heq⟩
  · rw [heq]
    exact .inl ⟨rfl, h.inv hw⟩
  · exact .inr (.inr ⟨hw, hu, heq⟩)
  · have hsw := h.swapBuffers hw
    rw [heq]
    dsimp only
    split
    · rename_i he
      refine .inr (.inl ⟨rfl, ?_, failWrite_writeFailed _⟩)
      refine inv_failWrite (hsw.bound.post hsw.posts calls) (hsw.told.post calls) ?_ hsw.close (by simpa using hw) ?_
      · exact { hsw.stream with stream := by simp, quiet := fun hq => absurd hq hsw.quiet }
      · exact fun _ => hs hw he
    · rename_i he
      exact .inl ⟨rfl, hsw.writing (by simpa using hw) (by simpa using he) hne⟩

/-- An error in posting the first operation, after which no thread is asked to close the descriptor -/
theorem Sending.not_sound_trySendData (h : c.Sending) (hw : c.socket.writing = false) (hu : c.socket.unsent ≠ [])
    (he : (c.impl.post calls).2 = true) (hs : ¬ (c.impl.post calls).1.Served) : ¬ (c.trySendData calls).1.Sound := by
  have hr : c.Reported := by
    rcases h.posts with hr | hc
    · exact hr
    · exact absurd (post_served (h.bound.connector hc)) hs
  rcases trySendData_cases h.stream calls with ⟨hw', -⟩ | ⟨-, hu', -⟩ | ⟨-, -, -, heq⟩
  · simp [hw] at hw'
  · exact absurd hu' hu
  · have hsw := h.swapBuffers hw
    have hb : Bound { c with socket := c.socket.swapBuffers, impl := (c.impl.post calls).1, writeFailed := true } :=
      { hsw.bound.post hsw.posts calls with }
    have ht : Told { c with socket := c.socket.swapBuffers, impl := (c.impl.post calls).1, writeFailed := true } :=
      { hsw.told.post calls with }
    rw [heq, if_pos he]
    exact not_sound_closeSocket hb ht hsw.close (by simpa using hw) hr hs

theorem Sending.inv_of_start (h : c.Sending) (hf : c.socket.flag = .start) (hu : c.socket.unsent = []) : c.Inv where
  bound := h.bound
  told := h.told
  stream := h.stream
  idled _ _ := hu
  flags := {
    close := fun hc => absurd hc h.close
    stop := by simp [hf]
    start := fun hs => ⟨h.quiet, h.start hs⟩
    failed := fun hfail => by simp [h.writeFailed] at hfail
    promise := by simp [hf]
    ended := fun he => (h.ended he).imp_right fun hs => by simp [hf] at hs }

theorem Sending.closed (h : c.Sending) (hw : c.socket.writing = false) (hu : c.socket.unsent = [])
    (hs : c.Reported → c.impl.Served) : c.shutdown.closeSocket.Inv := by
  have hst : c.shutdown.Stream := h.stream.shutdown fun hf => h.stream.promised_given hf hu
  obtain ⟨l, heq, -⟩ := shutdown_eq c
  rw [heq] at hst ⊢
  refine inv_closeSocket ?_ ?_ hst (fun _ _ => hu) hs (fun hc => absurd hc h.close) (fun _ => hw) ?_
  · exact { h.bound with }
  · exact { h.told with }
  · intro hw'
    simp [hw] at hw'

theorem Inv.sending (h : c.Inv) (hf : c.socket.flag = .start) {mb : Buffer} {data : List UInt8}
    (hw : c.socket.msgbuffer2.write data = .ok mb) :
    Sending { c with socket := { c.socket with msgbuffer2 := mb }, accepted := c.accepted ++ data } := by
  obtain ⟨hq, hp⟩ := h.flags.start hf
  have hnf : c.writeFailed = false := by
    by_contra hfail
    simp [h.flags.failed (by simpa using hfail)] at hf
  obtain ⟨hsane, hrest, -⟩ := h.stream.sane2.write hw
  exact {
    bound := { h.bound with }
    told := { h.told with }
    stream := { h.stream with
      sane2 := hsane
      stream := fun _ => by
        rw [← h.stream.stream hnf]
        simp [TcpBaseSocket.unsent, hrest]
      promised := h.stream.promised.trans (List.prefix_append _ _)
      quiet := fun hq' => absurd hq' hq }
    quiet := hq
    writeFailed := hnf
    close := by simp [hf]
    start := fun _ => hp
    stop := by simp [hf]
    ended := fun he => (h.flags.ended he).imp_right And.right }

theorem send_cases (h : c.Inv) {data : List UInt8} {c' : Conn} (hsend : c.send data calls = .ok c') :
    c.canSend data = false ∧ c' = c ∨
    c.canSend data = true ∧ ∃ c₁, Sending c₁ ∧ c₁.socket.writing = c.socket.writing ∧ c₁.impl = c.impl ∧
      c₁.socket.unsent ≠ [] ∧ c' = (c₁.trySendData calls).1 := by
  unfold send at hsend
  split at hsend
  · rename_i hc
    obtain ⟨mb, hw, hsend⟩ := Except.bind_eq_ok.mp hsend
    have hcan := hc
    simp only [canSend, checkCanSend, Bool.and_eq_true, decide_eq_true_eq] at hcan
    obtain ⟨⟨⟨hl, -⟩, hf⟩, -⟩ := hcan
    refine .inr ⟨hc, _, h.sending hf hw, rfl, rfl, ?_, (Except.ok.inj hsend).symm⟩
    have hne : data ≠ [] := by
      rintro rfl
      simp [i32] at hl
    obtain ⟨-, hrest, -⟩ := h.stream.sane2.write hw
    simp [TcpBaseSocket.unsent, hrest, hne]
  · rename_i hc
    exact .inl ⟨by simpa using hc, (Except.ok.inj hsend).symm⟩

theorem Inv.send (h : c.Inv) {data : List UInt8} {c' : Conn} (hs : c.canSend data = true → c.socket.writing = false →
    (c.impl.post calls).2 = true → (c.impl.post calls).1.Served) (hsend : c.send data calls = .ok c') : c'.Inv := by
  rcases send_cases h hsend with ⟨-, rfl⟩ | ⟨hc, c₁, h₁, hw, hi, hne, rfl⟩
  · exact h
  · rw [← hw, ← hi] at hs
    rcases h₁.trySendData calls (hs hc) with ⟨-, h'⟩ | ⟨-, h', -⟩ | ⟨-, hu, -⟩
    · exact h'
    · exact h'
    · exact absurd hu hne

theorem Inv.written (h : c.Inv) {tranByte : Nat} (ht : c.socket.InFlight tranByte) :
    Sending { c with
      socket := { c.socket with
        writing := false, posted := c.socket.posted.tail, msgbuffer1 := c.socket.msgbuffer1.cutData tranByte }
      given := c.given ++ c.socket.taken tranByte } := by
  obtain ⟨hw, hl, hnone, htaken⟩ := TcpBaseSocket.inFlight_spec h.stream.sane1 h.stream.posted ht
  have hq : ¬ c.Quiet := fun hq => by simp [(h.stream.quiet hq).2.2] at hw
  have hnf : c.writeFailed = false := by
    by_contra hf
    simp [h.failed (by simpa using hf)] at hw
  obtain ⟨hsane, hrest⟩ := h.stream.sane1.cutData hl
  exact {
    bound := { h.bound with writing := by simp }
    told := { h.told with }
    stream := { h.stream with
      sane1 := hsane
      stream := fun _ => by
        rw [← h.stream.stream hnf]
        simp only [TcpBaseSocket.unsent, hrest, htaken]
        rw [List.append_assoc, ← List.append_assoc (List.take _ _), List.take_append_drop]
      inflight := by simp
      posted := hnone
      quiet := fun hq' => absurd hq' hq }
    quiet := hq
    writeFailed := hnf
    close := fun hc => by simp [(h.flags.close hc).2] at hw
    start := fun hs => (h.flags.start hs).2
    stop := fun hs => h.flags.promise hs hw
    ended := fun he => (h.flags.ended he).imp_right And.right }

theorem Inv.writeHandler (h : c.Inv) {tranByte : Nat} (ht : c.socket.InFlight tranByte) {error : Bool} :
    (c.writeHandler tranByte error calls).Inv := by
  obtain ⟨hw, -, hnone, -⟩ := TcpBaseSocket.inFlight_spec h.stream.sane1 h.stream.posted ht
  have hs := h.written ht
  have hepoll := h.bound.writing hw
  dsimp only [Conn.writeHandler]
  split
  · refine inv_failWrite ?_ ?_ ?_ hs.close rfl fun _ _ _ => hepoll
    · exact { h.bound with writing := by simp }
    · exact { h.told with }
    · exact { h.stream with
        stream := by simp, inflight := by simp, posted := hnone, quiet := fun hq => absurd hq hs.quiet }
  · rcases hs.trySendData calls fun _ _ => post_served hepoll with ⟨h2, h'⟩ | ⟨h2, h', hf⟩ | ⟨-, hu, heq⟩
    · rw [h2, if_neg (by simp)]
      exact h'
    · rw [if_pos ⟨h2, by simp [h'.flags.failed hf]⟩, shutdown, if_pos hf]
      exact h'.closeSocket (h'.flags.failed hf)
    · rw [heq]
      have hsw := hs.swapBuffers rfl
      obtain ⟨-, -, hu', -⟩ := TcpBaseSocket.swapBuffers_spec hs.stream.sane1 hs.stream.sane2
      by_cases hf : c.socket.flag = .start
      · rw [if_neg fun hc => hc.2 (by simpa using hf)]
        exact hsw.inv_of_start (by simpa using hf) (hu'.trans hu)
      · rw [if_pos ⟨rfl, by simpa using hf⟩]
        exact hsw.closed (by simp) (hu'.trans hu) fun _ _ _ => hepoll

/-! ## The socket of the sends -/

@[simp] theorem closeSocket_socket (c : Conn) : c.closeSocket.socket = c.socket.closeSocket := by
  obtain ⟨l, heq, -⟩ := closeSocket_eq c
  rw [heq]

@[simp] theorem shutdown_socket (c : Conn) : c.shutdown.socket = c.socket := by
  obtain ⟨l, heq, -⟩ := shutdown_eq c
  rw [heq]

/-- As far as its own fields go, a socket does what `TcpBaseSocket` does with the errors of the descriptor. -/
theorem trySendData_socket (c : Conn) (calls : Calls) :
    ((c.trySendData calls).1.socket, (c.trySendData calls).2) = c.socket.trySendData (c.impl.post calls).2 := by
  unfold Conn.trySendData TcpBaseSocket.trySendData
  by_cases hw : c.socket.writing = true
  · simp only [if_pos hw]
  · simp only [if_neg hw]
    split
    · cases (c.impl.post calls).2 <;> simp [failWrite]
    · rfl

theorem send_socket (c : Conn) (data : List UInt8) (calls : Calls) :
    (c.send data calls).map (·.socket) = (c.socket.send data (c.impl.post calls).2).map (·.1) := by
  unfold Conn.send TcpBaseSocket.send canSend
  split
  · cases c.socket.msgbuffer2.write data with
    | error fault => rfl
    | ok mb =>
      have ht := trySendData_socket { c with
        socket := { c.socket with msgbuffer2 := mb }, accepted := c.accepted ++ data } calls
      exact congrArg (fun out => Except.ok out.1) ht
  · rfl

theorem writeHandler_socket (c : Conn) (tranByte : Nat) (error : Bool) (calls : Calls) :
    (c.writeHandler tranByte error calls).socket = c.socket.written tranByte error (c.impl.post calls).2 := by
  dsimp only [Conn.writeHandler, TcpBaseSocket.written, TcpBaseSocket.writeHandler]
  cases error with
  | true => simp [failWrite]
  | false =>
    by_cases h0 : tranByte = 0
    · simp [failWrite, h0]
    · have ht := trySendData_socket { c with
        socket := { c.socket with
          writing := false, posted := c.socket.posted.tail, msgbuffer1 := c.socket.msgbuffer1.cutData tranByte }
        given := c.given ++ c.socket.taken tranByte } calls
      simp only [Bool.false_eq_true, h0, or_self, if_false]
      rw [← ht]
      split
      · simp
      · rfl

/-! ## The calls -/

theorem Reported.call (h : c.Reported) (callback : Callback) : (c.call callback).Reported :=
  h.imp (List.mem_append_left _) (List.mem_append_left _)

theorem Inv.announced (h : c.Inv) (hr : ¬ c.Reported) (hfd : c.impl.fd = true) (stage : Stage) (hw : stage ≠ .waiting)
    (hst : stage ≠ .started) (error : Bool) : Inv ({ c with stage }.call (.onConnected error)) := by
  have hnil : c.callbacks = [] := by
    by_contra hne
    exact hr ((reported_iff h.told.order).mpr hne)
  have hr' : Reported ({ c with stage }.call (.onConnected error)) := by
    cases error <;> simp [Reported, Conn.call]
  have hcall : (({ c with stage } : Conn).call (.onConnected error)).callbacks = [.onConnected error] := by
    simp [Conn.call, hnil]
  exact {
    bound := { h.bound with
      blocking := fun hr => absurd hr' hr
      cutting := fun hc => absurd (h.bound.cutting hc).2.2 hr }
    told := {
      order := by rw [hcall]; exact ordered_singleton error
      fd := fun _ => by simp [hcall]
      gone := fun _ hfd' => by simp [Conn.call, hfd] at hfd'
      waiting := fun hs => absurd hs hw
      started := fun hs => absurd hs hst
      announced := fun _ => hr' }
    stream := { h.stream with quiet := fun hq => absurd hr' hq.1 }
    flags := { h.flags with start := fun hf => ⟨fun hq => hq.1 hr', (h.flags.start hf).2⟩ }
    idled := h.idled }

theorem Inv.start (h : c.Inv) (hq : ¬ c.Quiet) (ha : c.accepted = []) (hf : c.writeFailed = false)
    (hw : c.socket.writing = false) : Inv { c with socket := { c.socket with flag := .start } } where
  bound := { h.bound with }
  told := { h.told with }
  stream := { h.stream with }
  idled := h.idled
  flags := {
    close := by simp
    stop := by simp
    start := fun _ => ⟨hq, List.prefix_nil.mp (ha ▸ h.stream.promised)⟩
    failed := fun hfail => by simp [hf] at hfail
    promise := by simp
    ended := fun he => (h.flags.ended he).imp_right fun hs => by simp [hw] at hs }

theorem Inv.done (h : c.Inv) (hs : c.stage ≠ .started) : Inv { c with stage := .done } where
  bound := { h.bound with }
  told := { h.told with
    waiting := by simp
    started := by simp
    announced := by simp }
  stream := { h.stream with quiet := fun hq => h.stream.quiet ⟨hq.1, hs⟩ }
  flags := { h.flags with start := fun hf => (h.flags.start hf).imp_left fun hq hq' => hq ⟨hq'.1, hs⟩ }
  idled := h.idled

theorem Inv.quiet (h : c.Inv) (hw : c.stage = .waiting) : c.Quiet := ⟨h.told.waiting hw, by simp [hw]⟩

theorem Inv.init (h : c.Inv) (hw : c.stage = .waiting) {endpoints : Bool} (hfd : endpoints = true → c.impl.fd = true) :
    (c.init endpoints).Inv := by
  obtain ⟨ha, hf, hwr⟩ := h.stream.quiet (h.quiet hw)
  unfold Conn.init
  split
  · rename_i he
    have h' := h.announced (h.told.waiting hw) (hfd he) .announced (by simp) (by simp) false
    exact h'.start (fun hq => hq.1 (h'.told.announced rfl)) ha hf hwr
  · exact h.done (by simp [hw])

theorem Inv.connectHandler (h : c.Inv) (hc : c.connector = true) (hw : c.stage = .waiting) (hfd : c.impl.fd = true)
    {error endpoints : Bool} : (c.connectHandler error endpoints).Inv := by
  have hr := h.told.waiting hw
  obtain ⟨ha, hf, hwr⟩ := h.stream.quiet (h.quiet hw)
  unfold Conn.connectHandler
  split
  · exact h.announced hr hfd .done (by simp) (by simp) true
  · split
    · have h' : Inv { c with stage := .started } := {
        bound := { h.bound with }
        told := { h.told with
          waiting := by simp
          started := fun _ => ⟨hr, hc, hfd⟩
          announced := by simp }
        stream := { h.stream with quiet := fun hq => absurd rfl hq.2 }
        flags := { h.flags with start := fun hf => absurd (h.quiet hw) (h.flags.start hf).1 }
        idled := h.idled }
      exact h'.start (fun hq => hq.2 rfl) ha hf hwr
    · exact h.done (by simp [hw])

theorem Inv.onReceiveData (h : c.Inv) (hc : c.cutting = true) : Inv (c.call .onReceiveData) := by
  obtain ⟨-, hfd, hr⟩ := h.bound.cutting hc
  have hr' := Reported.call hr .onReceiveData
  have hno := h.told.fd hfd
  exact {
    bound := { h.bound with
      blocking := fun hr => absurd hr' hr
      cutting := fun hc => (h.bound.cutting hc).imp_right fun h => ⟨h.1, hr'⟩ }
    told := {
      order := h.told.order.onReceiveData ((reported_iff h.told.order).mp hr) hno
      fd := fun _ => by simpa [Conn.call] using hno
      gone := fun _ hfd' => by simp [Conn.call, hfd] at hfd'
      waiting := fun hs => absurd hr (h.told.waiting hs)
      started := fun hs => absurd hr (h.told.started hs).1
      announced := fun _ => hr' }
    stream := { h.stream with quiet := fun hq => absurd hr' hq.1 }
    flags := { h.flags with start := fun hf => ⟨fun hq => hq.1 hr', (h.flags.start hf).2⟩ }
    idled := h.idled }

theorem Inv.closing (h : c.Inv) (hq : 0 < c.impl.closereqs) : c.impl.closeFlag = true ∧ c.impl.fd = true := by
  rw [h.bound.closereqs] at hq
  cases hf : c.impl.closeFlag with
  | true => exact ⟨rfl, (h.bound.closeFlag hf).1⟩
  | false => simp [hf] at hq

theorem doClose_eq (c : Conn) : c.doClose = { c.shutdown with impl := c.impl.doClose }.call .onDisconnected := by
  unfold Conn.doClose shutdown
  split <;> rfl

theorem Inv.doClose (h : c.Inv) (hq : 0 < c.impl.closereqs) (hi : c.Idle) (hr : c.Reported)
    (hstop : c.socket.flag ≠ .stop) : c.doClose.Inv := by
  obtain ⟨hf, hfd⟩ := h.closing hq
  have hno := h.told.fd hfd
  have hst : c.shutdown.Stream := by
    refine h.stream.shutdown fun hnf => ?_
    cases hflag : c.socket.flag with
    | start =>
      rw [(h.flags.start hflag).2]
      exact List.nil_prefix
    | stop => exact absurd hflag hstop
    | close => exact h.stream.promised_given hnf (h.idled hnf (h.flags.close hflag).2)
  obtain ⟨l, heq, hl⟩ := shutdown_eq c
  rw [doClose_eq, heq]
  rw [heq] at hst
  have hr' : Reported ({ c with impl := c.impl.doClose, shutdowns := l }.call .onDisconnected) := Reported.call hr _
  have hreqs : c.impl.closereqs - 1 = 0 := by simp [h.bound.closereqs, hf]
  exact {
    bound := { h.bound with
      closeFlag := by simp [Conn.call, SocketImpl.doClose]
      nonblock := fun _ => rfl
      closereqs := hreqs
      blocking := fun hr => absurd hr' hr
      cutting := fun hc => by simp [Conn.call, hi.1] at hc }
    told := {
      order := h.told.order.onDisconnected ((reported_iff h.told.order).mp hr) hno
      fd := by simp [Conn.call, SocketImpl.doClose]
      gone := fun _ _ => by simp [Conn.call, List.count_eq_zero.mpr hno]
      waiting := fun hs => absurd hr (h.told.waiting hs)
      started := fun hs => absurd hr (h.told.started hs).1
      announced := fun _ => hr' }
    stream := { hst with quiet := fun hq => absurd hr' hq.1 }
    flags := {
      close := fun hc => ⟨.inl rfl, (h.flags.close hc).2⟩
      stop := fun hs => absurd hs hstop
      start := fun hf => ⟨fun hq => hq.1 hr', (h.flags.start hf).2⟩
      failed := h.flags.failed
      promise := fun hs => absurd hs hstop
      ended := fun _ => .inl (.inl rfl) }
    idled := h.idled }

theorem Inv.not_sound_doClose (h : c.Inv) (hq : 0 < c.impl.closereqs) (hm : ¬ (c.Reported ∧ c.socket.flag ≠ .stop)) :
    ¬ c.doClose.Sound := by
  intro hd
  obtain ⟨hf, hfd⟩ := h.closing hq
  rw [doClose_eq] at hd
  by_cases hr : c.Reported
  · have hstop : c.socket.flag = .stop := by
      by_contra hstop
      exact hm ⟨hr, hstop⟩
    have hw := h.flags.stop hstop (.inr hf)
    have hnf : c.writeFailed = false := by
      by_contra hfail
      simp [h.failed (by simpa using hfail)] at hw
    have hmem : (c.promised, c.given) ∈
        ({ c.shutdown with impl := c.impl.doClose }.call .onDisconnected).shutdowns := by
      simp [Conn.call, shutdown, hnf]
    have hp := hd.flushed _ hmem
    rw [h.flags.promise hstop hw hfd, ← h.stream.stream hnf] at hp
    have hlen := hp.length_le
    simp only [TcpBaseSocket.unsent, List.length_append] at hlen
    exact h.stream.inflight hw (List.eq_nil_of_length_eq_zero (by omega))
  · have hnil : c.callbacks = [] := by
      by_contra hne
      exact hr ((reported_iff h.told.order).mpr hne)
    obtain ⟨l, heq, -⟩ := shutdown_eq c
    have ho := hd.order
    rw [heq] at ho
    simp only [Conn.call, hnil, List.nil_append] at ho
    obtain ⟨error, he⟩ := ho.head
    cases he

theorem Inv.firstRecv (h : c.Inv) (hs : c.stage = .announced)
    (hserved : c.connector = false → (c.impl.post calls).2 = true → (c.impl.post calls).1.Served) :
    (c.firstRecv calls).Inv := by
  have h' := h.done (by simp [hs])
  have hr := h.told.announced hs
  dsimp only [Conn.firstRecv]
  split
  · split
    · exact h'.post (.inl hr) calls
    · rename_i he
      exact h'.reading (.inl hr) (by simpa using he)
  · rename_i hc
    exact h'.tryRecvData hr (hserved (by simpa using hc))

theorem Inv.readHandler (h : c.Inv) (hrd : c.reading = true) (hfd : c.impl.fd = true) (hi : c.Idle) {data : Bool} :
    (c.readHandler data).Inv := by
  have he := h.bound.reading hrd
  dsimp only [Conn.readHandler]
  split
  · rename_i hd
    have hr : c.Reported := by
      by_contra hr
      have hst : c.stage = .started := by
        by_contra hst
        exact (h.flags.start hd.2).1 ⟨hr, hst⟩
      have := hi.2 (h.told.started hst).2.1
      simp [hst] at this
    exact ⟨{ h.bound with reading := by simp, cutting := fun _ => ⟨he, hfd, hr⟩ }, { h.told with }, { h.stream with },
      { h.flags with }, h.idled⟩
  · have h' : Inv { c with reading := false } :=
      ⟨{ h.bound with reading := by simp }, { h.told with }, { h.stream with }, { h.flags with }, h.idled⟩
    exact h'.postClose fun _ _ _ => he

theorem Inv.cutMsgPack (h : c.Inv) (hc : c.cutting = true) {ok : Bool} : (c.cutMsgPack ok calls).Inv := by
  obtain ⟨he, -, hr⟩ := h.bound.cutting hc
  have h' : Inv { c with cutting := false } :=
    ⟨{ h.bound with cutting := by simp }, { h.told with }, { h.stream with }, { h.flags with }, h.idled⟩
  dsimp only [Conn.cutMsgPack]
  split
  · exact h'.tryRecvData hr fun _ => post_served he
  · exact h'.postClose fun _ _ _ => he

theorem eq_ok_of_toOption {x : Except Fault Conn} (h : x.toOption = some c) : x = .ok c := by
  cases x with
  | error fault => cases h
  | ok c' => exact congrArg _ (Option.some.inj h)

inductive Stepped (c : Conn) : Event → Conn → Prop where
  | init (endpoints : Bool) (hw : c.stage = .waiting) (hfd : endpoints = true → c.impl.fd = true) :
      Stepped c (.init endpoints) (c.init endpoints)
  | connectHandler (error endpoints : Bool) (hc : c.connector = true) (hw : c.stage = .waiting)
      (hfd : c.impl.fd = true) : Stepped c (.connectHandler error endpoints) (c.connectHandler error endpoints)
  | onConnected (hs : c.stage = .started) :
      Stepped c .onConnected ({ c with stage := .announced }.call (.onConnected false))
  | firstRecv (calls : Calls) (hs : c.stage = .announced) : Stepped c (.firstRecv calls) (c.firstRecv calls)
  | close : Stepped c .close c.postClose
  | send (data : List UInt8) (calls : Calls) (c' : Conn) (hsend : c.send data calls = .ok c') :
      Stepped c (.send data calls) c'
  | readHandler (data : Bool) (hr : c.reading = true) (hfd : c.impl.fd = true) (hi : c.Idle) :
      Stepped c (.readHandler data) (c.readHandler data)
  | onReceiveData (hc : c.cutting = true) : Stepped c .onReceiveData (c.call .onReceiveData)
  | cutMsgPack (ok : Bool) (calls : Calls) (hc : c.cutting = true) :
      Stepped c (.cutMsgPack ok calls) (c.cutMsgPack ok calls)
  | writeHandler (tranByte : Nat) (error : Bool) (calls : Calls) (ht : c.socket.InFlight tranByte)
      (hfd : c.impl.fd = true) :
      Stepped c (.writeHandler tranByte error calls) (c.writeHandler tranByte error calls)
  | doClose (hq : 0 < c.impl.closereqs) (hi : c.Idle) : Stepped c .doClose c.doClose

theorem stepped {e : Event} {c' : Conn} (h : c.step e = some c') : Stepped c e c' := by
  cases e with
  | close =>
    simp only [Conn.step, Option.some.injEq] at h
    subst h
    exact .close
  | send data calls => exact .send data calls c' (eq_ok_of_toOption h)
  | init endpoints =>
    simp only [Conn.step, Option.ite_none_right_eq_some, Option.some.injEq] at h
    obtain ⟨⟨-, hw, hfd⟩, rfl⟩ := h
    exact .init endpoints hw hfd
  | connectHandler error endpoints =>
    simp only [Conn.step, Option.ite_none_right_eq_some, Option.some.injEq] at h
    obtain ⟨⟨hc, hw, hfd⟩, rfl⟩ := h
    exact .connectHandler error endpoints hc hw hfd
  | onConnected =>
    simp only [Conn.step, Option.ite_none_right_eq_some, Option.some.injEq] at h
    obtain ⟨hs, rfl⟩ := h
    exact .onConnected hs
  | firstRecv calls =>
    simp only [Conn.step, Option.ite_none_right_eq_some, Option.some.injEq] at h
    obtain ⟨hs, rfl⟩ := h
    exact .firstRecv calls hs
  | readHandler data =>
    simp only [Conn.step, Option.ite_none_right_eq_some, Option.some.injEq] at h
    obtain ⟨⟨hr, hfd, hi⟩, rfl⟩ := h
    exact .readHandler data hr hfd hi
  | onReceiveData =>
    simp only [Conn.step, Option.ite_none_right_eq_some, Option.some.injEq] at h
    obtain ⟨hc, rfl⟩ := h
    exact .onReceiveData hc
  | cutMsgPack ok calls =>
    simp only [Conn.step, Option.ite_none_right_eq_some, Option.some.injEq] at h
    obtain ⟨hc, rfl⟩ := h
    exact .cutMsgPack ok calls hc
  | writeHandler tranByte error calls =>
    simp only [Conn.step, Option.ite_none_right_eq_some, Option.some.injEq] at h
    obtain ⟨⟨ht, hfd, -⟩, rfl⟩ := h
    exact .writeHandler tranByte error calls ht hfd
  | doClose =>
    simp only [Conn.step, Option.ite_none_right_eq_some, Option.some.injEq] at h
    obtain ⟨⟨hq, hi⟩, rfl⟩ := h
    exact .doClose hq hi

/-- A step that meets the condition keeps all, and any other makes the socket unsound. -/
theorem Inv.step (h : c.Inv) {e : Event} {c' : Conn} (hst : c.step e = some c') :
    (c.Meets e → c'.Inv) ∧ (c'.Sound → c.Meets e) := by
  cases stepped hst with
  | init endpoints hw hfd => exact ⟨fun _ => h.init hw hfd, fun _ => trivial⟩
  | connectHandler error endpoints hc hw hfd => exact ⟨fun _ => h.connectHandler hc hw hfd, fun _ => trivial⟩
  | onConnected hs =>
    obtain ⟨hr, -, hfd⟩ := h.told.started hs
    exact ⟨fun _ => h.announced hr hfd .announced (by simp) (by simp) false, fun _ => trivial⟩
  | firstRecv calls hs =>
    refine ⟨h.firstRecv hs, fun hsound hc he => ?_⟩
    by_contra hserved
    have hp := (h.done (by simp [hs])).post (.inl (h.told.announced hs)) calls
    have heq : c.firstRecv calls = { c with stage := .done, impl := (c.impl.post calls).1 }.postClose := by
      simp [Conn.firstRecv, Conn.tryRecvData, hc, he]
    rw [heq] at hsound
    exact hp.not_sound_postClose (h.told.announced hs) hserved hsound
  | close =>
    refine ⟨h.postClose, fun hsound hr => ?_⟩
    by_contra hserved
    exact h.not_sound_postClose hr hserved hsound
  | send data calls c' hsend =>
    refine ⟨fun hm => h.send hm hsend, fun hsound hc hw he => ?_⟩
    by_contra hserved
    rcases send_cases h hsend with ⟨hc', -⟩ | ⟨-, c₁, h₁, hw₁, hi₁, hne, rfl⟩
    · simp [hc] at hc'
    · rw [← hi₁] at he hserved
      exact h₁.not_sound_trySendData (hw₁.trans hw) hne he hserved hsound
  | readHandler data hr hfd hi => exact ⟨fun _ => h.readHandler hr hfd hi, fun _ => trivial⟩
  | onReceiveData hc => exact ⟨fun _ => h.onReceiveData hc, fun _ => trivial⟩
  | cutMsgPack ok calls hc => exact ⟨fun _ => h.cutMsgPack hc, fun _ => trivial⟩
  | writeHandler tranByte error calls ht => exact ⟨fun _ => h.writeHandler ht, fun _ => trivial⟩
  | doClose hq hi =>
    refine ⟨fun hm => h.doClose hq hi hm.1 hm.2, fun hsound => ?_⟩
    by_contra hm
    exact h.not_sound_doClose hq hm hsound

theorem inv_start (connector : Bool) : (Conn.start connector).Inv where
  bound := {
    closeFlag := by simp [Conn.start]
    nonblock := id
    closereqs := rfl
    connector := id
    blocking := fun _ hc _ => hc
    writing := by simp [Conn.start, TcpBaseSocket.init]
    reading := by simp [Conn.start]
    cutting := by simp [Conn.start] }
  told := {
    order := ordered_nil
    fd := by simp [Conn.start]
    gone := by simp [Conn.start]
    waiting := by simp [Conn.start, Reported]
    started := by simp [Conn.start]
    announced := by simp [Conn.start] }
  stream := {
    sane1 := Buffer.sane_init
    sane2 := Buffer.sane_init
    stream := fun _ => rfl
    inflight := by simp [Conn.start, TcpBaseSocket.init]
    posted := rfl
    promised := List.prefix_rfl
    flushed := by simp [Conn.start]
    quiet := fun _ => ⟨rfl, rfl, rfl⟩ }
  flags := {
    close := by simp [Conn.start]
    stop := by simp [Conn.start, SocketImpl.Gone]
    start := by simp [Conn.start]
    failed := by simp [Conn.start]
    promise := by simp [Conn.start, TcpBaseSocket.init]
    ended := by simp [Conn.start] }
  idled _ _ := rfl

theorem inv_of_run {connector : Bool} {t : List Event} (h : MeetingRun connector t c) : c.Inv :=
  Runs.Run.invariant (fun _ c => c.Inv) (inv_start connector) (fun _ _ _ _ _ hi hc hst => (hi.step hst).1 hc.2) h

/-- In all states of a run the socket is sound exactly if every step meets the condition. -/
theorem sound_iff {connector : Bool} {t : List Event} (h : Run connector t c) :
    (∀ t₁ c₁, t₁ <+: t → Run connector t₁ c₁ → c₁.Sound) ↔ MeetingRun connector t c := by
  apply h.always_iff (fun _ _ _ _ ha hb => Option.some.inj (ha.symm.trans hb)) Sound (inv_start connector).sound
  intro t c e c' hr hs _ hst
  have hi := inv_of_run hr
  exact ⟨(hi.step hst).2, fun hm => ((hi.step hst).1 hm).sound⟩

/-- An accepted socket that receives a packet, and is closed while three bytes are being sent. -/
def sendsAndCloses : List Event :=
  [.init true, .firstRecv ⟨true, true, true⟩, .readHandler true, .onReceiveData, .cutMsgPack true ⟨true, true, true⟩,
    .send [1, 2, 3] ⟨true, true, true⟩, .close, .writeHandler 2 false ⟨true, true, true⟩,
    .writeHandler 1 false ⟨true, true, true⟩, .doClose]

theorem sound_iff_sends : ∃ c, Run false sendsAndCloses c ∧
    c.callbacks = [.onConnected false, .onReceiveData, .onDisconnected] ∧ c.given = [1, 2, 3] ∧ c.Sound := by
  have h : (Runs.replay (fun c e => if e.Possible ∧ c.Meets e then c.step e else none) (start false) sendsAndCloses).map
      (fun c => (c.callbacks, c.given)) =
        some ([.onConnected false, .onReceiveData, .onDisconnected], [1, 2, 3]) := by decide +kernel
  obtain ⟨c, hc, he⟩ := Option.map_eq_some_iff.mp h
  obtain ⟨hcall, hgiven⟩ := Prod.mk.inj he
  have hm : MeetingRun false sendsAndCloses c := .of_replay_meets hc
  have hr : Run false sendsAndCloses c := hm.mono fun _ _ _ h => h.1
  exact ⟨c, hr, hcall, hgiven, (sound_iff hr).mpr hm _ _ List.prefix_rfl hr⟩

/-! ## Where it goes wrong -/

/-- The descriptor is closed, and no thread has been asked for an `OnDisconnected`. -/
structure Dead (c : Conn) : Prop where
  fd : c.impl.fd = false
  closereqs : c.impl.closereqs = 0
  disconnected : .onDisconnected ∉ c.callbacks

theorem Dead.closeSocket (h : c.Dead) : c.closeSocket.Dead := by
  obtain ⟨l, heq, -⟩ := closeSocket_eq c
  have hi : c.impl.close = c.impl := by simp [SocketImpl.close, h.fd]
  rw [heq, hi, ite_self]
  exact ⟨h.fd, h.closereqs, h.disconnected⟩

theorem Dead.postClose (h : c.Dead) : c.postClose.Dead := by
  unfold Conn.postClose
  apply Dead.closeSocket
  exact ⟨h.fd, h.closereqs, h.disconnected⟩

theorem Dead.post (h : c.Dead) (calls : Calls) : c.impl.post calls = (c.impl, true) := by simp [SocketImpl.post, h.fd]

theorem Dead.tryRecvData (h : c.Dead) : (c.tryRecvData calls).Dead := by
  simp only [Conn.tryRecvData, h.post, if_true]
  exact h.postClose

theorem Dead.trySendData (h : c.Dead) : (c.trySendData calls).1.Dead := by
  unfold Conn.trySendData
  split
  · exact h
  · simp only [h.post, if_true]
    split
    · apply Dead.closeSocket
      exact ⟨h.fd, h.closereqs, h.disconnected⟩
    · exact ⟨h.fd, h.closereqs, h.disconnected⟩

theorem Dead.send (h : c.Dead) {data : List UInt8} {c' : Conn} (hsend : c.send data calls = .ok c') : c'.Dead := by
  unfold Conn.send at hsend
  split at hsend
  · obtain ⟨mb, -, hsend⟩ := Except.bind_eq_ok.mp hsend
    rw [← Except.ok.inj hsend]
    apply Dead.trySendData
    exact ⟨h.fd, h.closereqs, h.disconnected⟩
  · exact Except.ok.inj hsend ▸ h

theorem Dead.call (h : c.Dead) {callback : Callback} (hc : callback ≠ .onDisconnected) : (c.call callback).Dead := by
  refine ⟨h.fd, h.closereqs, ?_⟩
  simp [Conn.call, h.disconnected, hc.symm]

theorem Dead.step (h : c.Dead) {e : Event} {c' : Conn} (hst : c.step e = some c') : c'.Dead := by
  cases stepped hst with
  | init endpoints _ hfd =>
    cases endpoints with
    | true => simp [h.fd] at hfd
    | false => exact ⟨h.fd, h.closereqs, h.disconnected⟩
  | connectHandler error endpoints _ _ hfd => simp [h.fd] at hfd
  | onConnected =>
    apply Dead.call
    · exact ⟨h.fd, h.closereqs, h.disconnected⟩
    · simp
  | firstRecv calls =>
    have h' : Dead { c with stage := .done } := ⟨h.fd, h.closereqs, h.disconnected⟩
    simp only [Conn.firstRecv, h.post, if_true]
    split
    · exact h'
    · exact h'.tryRecvData
  | close => exact h.postClose
  | send data calls c' hsend => exact h.send hsend
  | readHandler data _ hfd => simp [h.fd] at hfd
  | onReceiveData => exact h.call (by simp)
  | cutMsgPack ok calls =>
    have h' : Dead { c with cutting := false } := ⟨h.fd, h.closereqs, h.disconnected⟩
    dsimp only [Conn.cutMsgPack]
    split
    · exact h'.tryRecvData
    · exact h'.postClose
  | writeHandler tranByte error calls _ hfd => simp [h.fd] at hfd
  | doClose hq => simp [h.closereqs] at hq

theorem Dead.run (h : c.Dead) {t : List Event} {c' : Conn}
    (hr : Runs.Run (fun c e c' => c.step e = some c') (fun _ _ e => e.Possible) c t c') : c'.Dead :=
  hr.invariant (fun _ c => c.Dead) h fun _ _ _ _ _ hd _ hst => hd.step hst

/-- The events of a connector that is closed, connects, and is closed again while it sends. -/
def closesTwice : List Event :=
  [.close, .connectHandler false true, .onConnected, .firstRecv ⟨true, true, true⟩, .send [1] ⟨true, true, true⟩,
    .close, .doClose]

/-- An accepted socket that is closed as soon as it has been reported is never reported to be gone. A connector that is
closed before its connect has completed may be reported to be gone only, or lose what is sent before a second close. -/
theorem closed_early : (∃ c, Run false [.init true, .close] c ∧ c.Reported ∧ c.Dead ∧ ¬ c.Sound) ∧
    (∃ c, Run true [.close, .doClose] c ∧ c.callbacks = [.onDisconnected] ∧ ¬ c.Sound) ∧
    ∃ c, Run true closesTwice c ∧ c.shutdowns = [([1], [])] ∧ ¬ c.Sound := by
  refine ⟨?_, ?_, ?_⟩
  · have h : (Runs.replay (fun c e => if e.Possible then c.step e else none) (start false) [.init true, .close]).map
        (fun c => (c.callbacks, c.impl.fd, c.impl.closereqs)) = some ([.onConnected false], false, 0) := by
      decide +kernel
    obtain ⟨c, hc, he⟩ := Option.map_eq_some_iff.mp h
    simp only [Prod.mk.injEq] at he
    obtain ⟨hcall, hfd, hreqs⟩ := he
    have hr : c.Reported := by simp [Reported, hcall]
    refine ⟨c, .of_replay_meets hc, hr, ⟨hfd, hreqs, by simp [hcall]⟩, fun hs => ?_⟩
    have := hs.disconnected hr (.inl hfd)
    simp [hcall, hreqs] at this
  · have h : (Runs.replay (fun c e => if e.Possible then c.step e else none) (start true) [.close, .doClose]).map
        (fun c => c.callbacks) = some [.onDisconnected] := by decide +kernel
    obtain ⟨c, hc, hcall⟩ := Option.map_eq_some_iff.mp h
    refine ⟨c, .of_replay_meets hc, hcall, fun hs => ?_⟩
    have ho := hs.order
    rw [hcall] at ho
    obtain ⟨error, he⟩ := ho.head
    cases he
  · have h : (Runs.replay (fun c e => if e.Possible then c.step e else none) (start true) closesTwice).map
        (fun c => c.shutdowns) = some [([1], [])] := by decide +kernel
    obtain ⟨c, hc, hs⟩ := Option.map_eq_some_iff.mp h
    refine ⟨c, .of_replay_meets hc, hs, fun hsound => ?_⟩
    have hp := hsound.flushed ([1], []) (by simp [hs])
    simp at hp

end Conn

end GlobalServer.Lifecycle

import FlashKV.Server.Counters
import FlashKV.Server.PollLoop
import FlashKV.Server.Requests

/-!
# The poll loop is an event loop

Every run of the poll loop is a run of the event loop on the events that it has traced: the shared
state is the same, and the table of clients holds exactly the connections that are open, each under
its descriptor. No descriptor leaks and none is closed twice. What `poll` reports for a descriptor is
handled for the connection that had it when `poll` was called.
-/

namespace FlashKV

open Database

/-- The clients are the open connections of the event loop. -/
structure PollServer.Mirrors (s : PollServer) (server : Server) : Prop where
  core : s.core = server.core
  accepted : s.accepted = server.connections.length
  count : s.clients.length = server.clientCount
  numbers : (s.clients.map (·.number)).Nodup
  client : ∀ attached ∈ s.clients, ∃ connection, server.connections[attached.number]? = some connection ∧
    connection.closed = false ∧ connection.client = attached.client
  complete : ∀ number connection, server.connections[number]? = some connection →
    connection.closed = false → number ∈ s.clients.map (·.number)

section Table

variable {s : PollServer} {socket : Nat} {attached : Attached}

lemma PollServer.find?_some (found : s.find? socket = some attached) :
    attached ∈ s.clients ∧ attached.socket = socket :=
  ⟨List.mem_of_find?_eq_some found, by simpa using List.find?_some found⟩

lemma PollServer.find?_none : s.find? socket = none ↔ socket ∉ s.clients.map (·.socket) := by
  unfold find?
  rw [List.find?_eq_none, List.mem_map, not_exists]
  refine forall_congr' fun attached => ?_
  rw [not_and, decide_eq_true_eq]

lemma PollServer.find?_of_mem (sockets : (s.clients.map (·.socket)).Nodup)
    (mem : attached ∈ s.clients) : s.find? attached.socket = some attached := by
  cases found : s.find? attached.socket with
  | none => exact absurd (List.mem_map_of_mem mem) (find?_none.mp found)
  | some other =>
    obtain ⟨there, same⟩ := find?_some found
    rw [List.inj_on_of_nodup_map sockets there mem same]

/-- Replacing a client keeps descriptors and numbers. -/
lemma PollServer.map_update {α : Type} {f : Attached → α}
    (blind : ∀ (attached : Attached) client, f { attached with client := client } = f attached)
    (socket : Nat) (client : Client) (s : PollServer) :
    (s.update socket client).clients.map f = s.clients.map f := by
  show (s.clients.map _).map f = _
  rw [List.map_map]
  refine List.map_congr_left fun attached _ => ?_
  rw [Function.comp_apply]
  split
  · exact blind attached client
  · rfl

/-- Forgetting a client. -/
lemma PollServer.length_detached (sockets : (s.clients.map (·.socket)).Nodup)
    (mem : attached ∈ s.clients) :
    (s.clients.filter fun other => other.socket ≠ attached.socket).length + 1 = s.clients.length := by
  have one : s.clients.countP (fun other => other.socket = attached.socket) = 1 := by
    have count := List.count_eq_one_of_mem sockets (List.mem_map_of_mem mem)
    rw [List.count, List.countP_map] at count
    rw [← count]
    refine List.countP_congr fun other _ => ?_
    simp
  have all := List.length_eq_countP_add_countP (fun other : Attached => other.socket = attached.socket)
    (l := s.clients)
  rw [one, List.countP_eq_length_filter] at all
  rw [all, Nat.add_comm]
  refine congrArg (1 + ·) (congrArg List.length (List.filter_congr fun other _ => ?_))
  simp

end Table

section Step

variable {clock : Nat → Int} {s : PollServer} {server : Server} {socket : Nat} {attached : Attached}

/-- A connection is accepted. -/
lemma PollServer.Mirrors.attach (h : s.Mirrors server) (fresh : s.find? socket = none) :
    (s.attach socket).Mirrors server.acceptClient := by
  have clients : (s.attach socket).clients =
      s.clients ++ [{ socket := socket, number := server.connections.length }] := by
    rw [← h.accepted, ← List.concat_eq_append]
    show (if (s.find? socket).isSome then _ else _) = _
    rw [fresh]
    rfl
  have connections : server.acceptClient.connections =
      server.connections ++ [({} : Connection Core)] := List.concat_eq_append
  have count : server.acceptClient.clientCount = server.clientCount + 1 := by
    unfold Server.clientCount
    rw [connections, List.countP_append]
    rfl
  have length : (s.attach socket).clients.length = server.acceptClient.clientCount := by
    rw [clients, count, List.length_append, h.count, List.length_singleton]
  have earlier : ∀ attached ∈ s.clients, attached.number < server.connections.length := by
    intro attached mem
    obtain ⟨connection, found, _⟩ := h.client attached mem
    exact (List.getElem?_eq_some_iff.mp found).choose
  constructor
  · have core : (s.attach socket).core = { s.core with processor := { s.core.processor with
        stats := { s.core.processor.stats with
          totalConnections := s.core.processor.stats.totalConnections + 1
          connectedClients := (s.attach socket).clients.length } } } := rfl
    rw [core, length, h.core]
    rfl
  · show s.accepted + 1 = _
    rw [connections, List.length_append, h.accepted, List.length_singleton]
  · exact length
  · rw [clients, List.map_append, List.nodup_append]
    refine ⟨h.numbers, List.nodup_singleton _, fun number mem other mem' => ?_⟩
    obtain ⟨attached, there, rfl⟩ := List.mem_map.mp mem
    rw [List.mem_singleton.mp mem']
    exact (earlier attached there).ne
  · intro attached mem
    rw [clients] at mem
    rw [connections]
    rcases List.mem_append.mp mem with mem | mem
    · rw [List.getElem?_append_left (earlier attached mem)]
      exact h.client attached mem
    · rw [List.mem_singleton.mp mem]
      exact ⟨{}, List.getElem?_concat_length, rfl, rfl⟩
  · intro number connection found live
    rw [clients, List.map_append, List.mem_append]
    rw [connections] at found
    rcases lt_or_ge number server.connections.length with before | after
    · rw [List.getElem?_append_left before] at found
      exact .inl (h.complete number connection found live)
    · have last := (List.getElem?_eq_some_iff.mp found).choose
      rw [List.length_append, List.length_singleton] at last
      exact .inr (List.mem_singleton.mpr (by dsimp only; omega))

/-- The shared state after the events of a connection have been handled. -/
lemma Server.handleClient_core (clock : Nat → Int) {index : Nat} {connection : Connection Core}
    (found : server.connections[index]? = some connection) (live : connection.closed = false)
    (event : ClientEvent) (writes : List WriteOutcome) :
    let result := handleClientEvents (Core.execute clock) (Core.flush writes) event connection.client
      server.core
    let next := server.handleClient clock index event writes
    next.core = if result.keep then result.state else
      { result.state with processor := { result.state.processor with
          stats := { result.state.processor.stats with connectedClients := next.clientCount } } } := by
  intro result next
  have stepped : connection.step (Core.execute clock) (Core.flush writes) (.handle event server.core) =
      ⟨result.client, connection.answers ++ result.answers, connection.sent ++ result.sent,
        !result.keep⟩ := by
    rw [Connection.step, if_neg (by rw [live]; decide)]
  have isNext : next = server.handleClient clock index event writes := rfl
  unfold Server.handleClient at isNext
  rw [found] at isNext
  dsimp only at isNext
  rw [live, if_neg (by decide), stepped] at isNext
  cases keep : result.keep with
  | true =>
    rw [isNext, keep, if_pos rfl]
    rfl
  | false =>
    rw [isNext, keep]
    rfl

/-- The number of open connections, when one of them is closed. -/
lemma Server.clientCount_close {index : Nat} {connection next : Connection Core} (core : Core)
    (found : server.connections[index]? = some connection) (live : connection.closed = false)
    (closed : next.closed = true) :
    Server.clientCount ⟨core, server.connections.set index next⟩ + 1 = server.clientCount := by
  obtain ⟨before, after, split, set⟩ := Server.connections_set found
  unfold clientCount
  dsimp only
  rw [set, split]
  simp only [List.countP_append, List.countP_cons, live, closed, Bool.not_true, Bool.not_false,
    Bool.false_eq_true, if_true, if_false]
  omega

/-- Another client has another connection. -/
lemma PollServer.Mirrors.elsewhere (h : s.Mirrors server) (there : attached ∈ s.clients)
    {other : Attached} (mem : other ∈ s.clients) (ne : other.socket ≠ attached.socket)
    (next : Connection Core) :
    (server.connections.set attached.number next)[other.number]? =
      server.connections[other.number]? := by
  refine List.getElem?_set_ne fun same => ne ?_
  rw [List.inj_on_of_nodup_map h.numbers there mem same]

/-- A connection that stays open. -/
lemma PollServer.Mirrors.replace (h : s.Mirrors server)
    (sockets : (s.clients.map (·.socket)).Nodup) (there : attached ∈ s.clients)
    {s' : PollServer} {server' : Server} {next : Connection Core} (core : s'.core = server'.core)
    (accepted : s'.accepted = s.accepted)
    (clients : s'.clients = (s.update attached.socket next.client).clients)
    (connections : server'.connections = server.connections.set attached.number next)
    (open_ : next.closed = false) : s'.Mirrors server' := by
  obtain ⟨connection, found, live, _⟩ := h.client attached there
  have inside := (List.getElem?_eq_some_iff.mp found).choose
  have numbers : s'.clients.map (·.number) = s.clients.map (·.number) := by
    rw [clients]
    exact map_update (fun _ _ => rfl) _ _ s
  constructor
  · exact core
  · rw [accepted, connections, List.length_set, h.accepted]
  · have count := Server.clientCount_set server'.core found (open_.trans live.symm)
    have length : s'.clients.length = s.clients.length := by
      rw [clients]
      exact List.length_map _
    rw [length, h.count, ← count, ← connections]
  · rw [numbers]
    exact h.numbers
  · intro updated mem
    rw [clients] at mem
    obtain ⟨other, known, rfl⟩ := List.mem_map.mp mem
    rw [connections]
    split
    · rename_i here
      rw [List.inj_on_of_nodup_map sockets known there here]
      exact ⟨next, List.getElem?_set_self inside, open_, rfl⟩
    · rename_i ne
      rw [h.elsewhere there known ne]
      exact h.client other known
  · intro number connection' found' live'
    rw [numbers]
    rw [connections] at found'
    by_cases here : attached.number = number
    · rw [← here]
      exact List.mem_map_of_mem there
    · rw [List.getElem?_set_ne here] at found'
      exact h.complete number connection' found' live'

/-- A connection that is closed. -/
lemma PollServer.Mirrors.remove (h : s.Mirrors server)
    (sockets : (s.clients.map (·.socket)).Nodup) (there : attached ∈ s.clients)
    {s' : PollServer} {server' : Server} {next : Connection Core}
    (core : s'.clients.length = server'.clientCount → s'.core = server'.core)
    (accepted : s'.accepted = s.accepted)
    (clients : s'.clients = s.clients.filter fun other => other.socket ≠ attached.socket)
    (connections : server'.connections = server.connections.set attached.number next)
    (closed : next.closed = true) : s'.Mirrors server' := by
  obtain ⟨connection, found, live, _⟩ := h.client attached there
  have inside := (List.getElem?_eq_some_iff.mp found).choose
  have length : s'.clients.length = server'.clientCount := by
    have fewer := length_detached sockets there
    have count := Server.clientCount_close server'.core found live closed
    rw [← connections] at count
    change server'.clientCount + 1 = _ at count
    rw [← clients] at fewer
    have same := h.count
    omega
  have sublist : (s'.clients.map (·.number)).Sublist (s.clients.map (·.number)) := by
    rw [clients]
    exact List.filter_sublist.map _
  constructor
  · exact core length
  · rw [accepted, connections, List.length_set, h.accepted]
  · exact length
  · exact h.numbers.sublist sublist
  · intro other mem
    rw [clients] at mem
    obtain ⟨mem, ne⟩ := List.mem_filter.mp mem
    rw [connections, h.elsewhere there mem (of_decide_eq_true ne)]
    exact h.client other mem
  · intro number connection' found' live'
    rw [connections] at found'
    by_cases here : attached.number = number
    · rw [← here, List.getElem?_set_self inside] at found'
      cases found'
      rw [closed] at live'
      cases live'
    · rw [List.getElem?_set_ne here] at found'
      obtain ⟨other, mem, rfl⟩ := List.mem_map.mp (h.complete number connection' found' live')
      rw [clients]
      refine List.mem_map_of_mem (List.mem_filter.mpr ⟨mem, decide_eq_true fun same => here ?_⟩)
      rw [List.inj_on_of_nodup_map sockets mem there same]

/-- The events of a client are handled. -/
lemma PollServer.Mirrors.handleClient (h : s.Mirrors server)
    (sockets : (s.clients.map (·.socket)).Nodup) (found : s.find? socket = some attached)
    (revents : Revents) (calls : Calls) :
    (s.handleClient clock revents calls socket).Mirrors
      (server.handleClient clock attached.number (clientEvent revents calls) calls.writes) := by
  obtain ⟨there, isSocket⟩ := find?_some found
  obtain ⟨connection, at_, live, client⟩ := h.client attached there
  obtain ⟨handled, isHandled⟩ : ∃ handled, handled = handleClientEvents (Core.execute clock)
    (Core.flush calls.writes) (clientEvent revents calls) attached.client s.core := ⟨_, rfl⟩
  have connections := (Server.handleClient_spec clock at_ live (clientEvent revents calls)
    calls.writes).1
  have core := Server.handleClient_core clock at_ live (clientEvent revents calls) calls.writes
  dsimp only at connections core
  rw [client, ← h.core, ← isHandled] at connections core
  unfold PollServer.handleClient
  rw [found]
  dsimp only
  rw [← isHandled]
  subst isSocket
  cases keep : handled.keep with
  | true =>
    rw [keep, if_pos rfl] at core
    rw [keep] at connections
    exact h.replace sockets there core.symm rfl rfl connections rfl
  | false =>
    rw [keep, if_neg (by decide)] at core
    rw [keep] at connections
    rw [if_neg Bool.false_ne_true]
    refine h.remove sockets there (fun length => ?_) ?_ ?_ connections rfl
    · rw [core, ← length]
      unfold detach closeSocket
      split <;> rfl
    · unfold detach closeSocket
      split <;> rfl
    · unfold detach closeSocket
      split <;> rfl

end Step

/-! ### The invariant -/

/-- What holds in every state of the loop: it mirrors the event loop on the events so far, every
client has a descriptor of its own, and no other descriptor has been opened and not closed. -/
structure PollServer.Sound (clock : Nat → Int) (initial : Core) (others : Finset Nat)
    (s : PollServer) : Prop where
  mirrors : s.Mirrors (Server.run clock { core := initial } s.trace)
  sockets : (s.clients.map (·.socket)).Nodup
  descriptors : s.descriptors = others ∪ (s.clients.map (·.socket)).toFinset
  apart : ∀ attached ∈ s.clients, attached.socket ∉ others
  closes : s.closeErrors = 0
  fits : ∀ event ∈ s.trace, event.Fits

section Sound

variable {clock : Nat → Int} {initial : Core} {others : Finset Nat} {s : PollServer} {socket : Nat}
  {attached : Attached}

lemma Server.run_concat (clock : Nat → Int) (server : Server) (events : List ServerEvent)
    (event : ServerEvent) :
    server.run clock (events.concat event) = (server.run clock events).step clock event := by
  unfold Server.run
  rw [List.concat_eq_append, List.foldl_append]
  rfl

lemma fits_concat {trace : List ServerEvent} {event : ServerEvent}
    (fits : ∀ other ∈ trace, other.Fits) (here : event.Fits) :
    ∀ other ∈ trace.concat event, other.Fits := by
  rw [List.concat_eq_append]
  exact List.forall_mem_append.mpr ⟨fits, List.forall_mem_singleton.mpr here⟩

/-- A connection is accepted with a descriptor that was not open. -/
lemma PollServer.Sound.attach (h : s.Sound clock initial others) (fresh : socket ∉ s.descriptors) :
    (({ s with descriptors := insert socket s.descriptors } : PollServer).attach socket).Sound clock
      initial others := by
  have unknown : s.find? socket = none := by
    refine find?_none.mpr fun mem => fresh ?_
    rw [h.descriptors]
    exact Finset.mem_union_right _ (List.mem_toFinset.mpr mem)
  have clients : (({ s with descriptors := insert socket s.descriptors } : PollServer).attach
      socket).clients = s.clients ++ [{ socket := socket, number := s.accepted }] := by
    rw [← List.concat_eq_append]
    show (if (s.find? socket).isSome then _ else _) = _
    rw [unknown]
    rfl
  constructor
  · obtain ⟨core, accepted, count, numbers, client, complete⟩ := h.mirrors
    have opened : ({ s with descriptors := insert socket s.descriptors } : PollServer).Mirrors
        (Server.run clock { core := initial } s.trace) :=
      ⟨core, accepted, count, numbers, client, complete⟩
    have next : (({ s with descriptors := insert socket s.descriptors } : PollServer).attach
        socket).Mirrors ((Server.run clock { core := initial } s.trace).step clock .accept) :=
      opened.attach unknown
    rw [← Server.run_concat] at next
    exact next
  · rw [clients, List.map_append, List.nodup_append]
    refine ⟨h.sockets, List.nodup_singleton _, ?_⟩
    rintro other mem _ (last : _ ∈ [socket]) rfl
    rw [List.mem_singleton.mp last] at mem
    exact find?_none.mp unknown mem
  · show insert socket s.descriptors = _
    rw [clients, h.descriptors]
    ext other
    simp
  · rw [clients]
    refine List.forall_mem_append.mpr ⟨h.apart, List.forall_mem_singleton.mpr fun mem => fresh ?_⟩
    rw [h.descriptors]
    exact Finset.mem_union_left _ mem
  · exact h.closes
  · exact fits_concat h.fits (show ServerEvent.accept.Fits from trivial)

/-- All connections that are waiting are accepted. -/
lemma PollServer.Sound.acceptClients {outcomes : List AcceptOutcome}
    (h : s.Sound clock initial others) (fresh : FreshAccepts outcomes s.descriptors) :
    (s.acceptClients outcomes).Sound clock initial others ∧
    (∃ count, (s.acceptClients outcomes).trace = s.trace ++ List.replicate count .accept) ∧
    s.clients <+: (s.acceptClients outcomes).clients := by
  induction outcomes generalizing s with
  | nil => exact ⟨h, ⟨0, (List.append_nil _).symm⟩, List.prefix_rfl⟩
  | cons outcome outcomes ih =>
    cases outcome with
    | again | failed => exact ⟨h, ⟨0, (List.append_nil _).symm⟩, List.prefix_rfl⟩
    | interrupted => exact ih h fresh
    | accepted socket nonBlocking =>
      obtain ⟨unused, fresh⟩ := fresh
      unfold PollServer.acceptClients
      cases nonBlocking with
      | true =>
        obtain ⟨sound, ⟨count, trace⟩, clients⟩ := ih (h.attach unused) fresh
        refine ⟨sound, ⟨count + 1, ?_⟩, .trans ?_ clients⟩
        · rw [if_pos rfl, trace, List.replicate_succ, List.append_cons]
          refine congrArg (· ++ _) ?_
          exact List.concat_eq_append
        · unfold PollServer.attach
          dsimp only [PollServer.setStats]
          split
          · exact List.prefix_rfl
          · rw [List.concat_eq_append]
            exact List.prefix_append _ _
      | false =>
        have same : ({ s with descriptors := insert socket s.descriptors } : PollServer).closeSocket
            socket = s := by
          unfold closeSocket
          rw [if_pos (Finset.mem_insert_self _ _)]
          dsimp only
          rw [Finset.erase_insert unused]
        rw [if_neg Bool.false_ne_true, same]
        exact ih h fresh

/-- The table without a client that has been closed. -/
lemma PollServer.detach_spec (descriptors : s.descriptors = others ∪ (s.clients.map (·.socket)).toFinset)
    (apart : ∀ attached ∈ s.clients, attached.socket ∉ others) (there : attached ∈ s.clients) :
    (s.detach attached.socket).clients =
      s.clients.filter (fun other => other.socket ≠ attached.socket) ∧
    (s.detach attached.socket).descriptors =
      others ∪ ((s.detach attached.socket).clients.map (·.socket)).toFinset ∧
    (s.detach attached.socket).trace = s.trace ∧
    (s.detach attached.socket).closeErrors = s.closeErrors := by
  have opened : attached.socket ∈ s.descriptors := by
    rw [descriptors]
    exact Finset.mem_union_right _ (List.mem_toFinset.mpr (List.mem_map_of_mem there))
  have closed : s.closeSocket attached.socket =
      { s with descriptors := s.descriptors.erase attached.socket } := if_pos opened
  unfold PollServer.detach
  rw [closed]
  refine ⟨rfl, ?_, rfl, rfl⟩
  show s.descriptors.erase attached.socket =
    others ∪ ((s.clients.filter _).map (·.socket)).toFinset
  rw [descriptors]
  ext other
  simp only [Finset.mem_erase, Finset.mem_union, List.mem_toFinset, List.mem_map, List.mem_filter,
    decide_eq_true_eq]
  constructor
  · rintro ⟨ne, mem | ⟨client, mem, rfl⟩⟩
    · exact .inl mem
    · exact .inr ⟨client, ⟨mem, ne⟩, rfl⟩
  · rintro (mem | ⟨client, ⟨mem, ne⟩, rfl⟩)
    · refine ⟨?_, .inl mem⟩
      rintro rfl
      exact apart attached there mem
    · exact ⟨ne, .inr ⟨client, mem, rfl⟩⟩

/-- The events of a client are handled: the loop goes on with the other clients. -/
lemma PollServer.Sound.handleClient (h : s.Sound clock initial others)
    (there : attached ∈ s.clients) (revents : Revents) {calls : Calls}
    (received : ∀ bytes, .received bytes ∈ calls.recvs → bytes.length ≤ readChunkSize) :
    (s.handleClient clock revents calls attached.socket).Sound clock initial others ∧
    (s.handleClient clock revents calls attached.socket).trace =
      s.trace.concat (.client attached.number (clientEvent revents calls) calls.writes) ∧
    ∀ other ∈ s.clients, other.socket ≠ attached.socket →
      other ∈ (s.handleClient clock revents calls attached.socket).clients := by
  obtain ⟨event, isEvent⟩ : ∃ event : ServerEvent, event =
    .client attached.number (clientEvent revents calls) calls.writes := ⟨_, rfl⟩
  have fits : event.Fits := by
    rw [isEvent]
    exact received
  have found := find?_of_mem h.sockets there
  have mirrors : (s.handleClient clock revents calls attached.socket).Mirrors
      (Server.run clock { core := initial } (s.trace.concat event)) := by
    rw [Server.run_concat, isEvent]
    exact h.mirrors.handleClient h.sockets found revents calls
  rw [← isEvent]
  unfold PollServer.handleClient at mirrors ⊢
  rw [found] at mirrors ⊢
  dsimp only at mirrors ⊢
  rw [← isEvent] at mirrors ⊢
  generalize handleClientEvents (Core.execute clock) (Core.flush calls.writes)
    (clientEvent revents calls) attached.client s.core = handled at mirrors ⊢
  cases keep : handled.keep with
  | true =>
    rw [keep, if_pos rfl] at mirrors
    rw [if_pos rfl]
    have sockets : ((({ s with core := handled.state, trace := s.trace.concat event } :
        PollServer).update attached.socket handled.client).clients.map (·.socket)) =
        s.clients.map (·.socket) := map_update (fun _ _ => rfl) _ _ _
    refine ⟨⟨mirrors, ?_, ?_, ?_, h.closes, fits_concat h.fits fits⟩, rfl, fun other mem ne => ?_⟩
    · rw [sockets]
      exact h.sockets
    · rw [sockets]
      exact h.descriptors
    · have apart : ∀ socket ∈ s.clients.map (·.socket), socket ∉ others :=
        List.forall_mem_map.mpr h.apart
      rw [← sockets] at apart
      exact fun other mem => apart _ (List.mem_map_of_mem mem)
    · exact List.mem_map.mpr ⟨other, mem, if_neg ne⟩
  | false =>
    rw [keep, if_neg Bool.false_ne_true] at mirrors
    rw [if_neg Bool.false_ne_true]
    obtain ⟨clients, descriptors, trace, closes⟩ := detach_spec
      (s := { s with core := handled.state, trace := s.trace.concat event }) h.descriptors h.apart there
    have known : ∀ other ∈ (({ s with core := handled.state, trace := s.trace.concat event } :
        PollServer).detach attached.socket).clients, other ∈ s.clients := by
      rw [clients]
      exact fun other mem => (List.mem_filter.mp mem).1
    refine ⟨⟨?_, ?_, descriptors, fun other mem => h.apart other (known other mem),
      closes.trans h.closes, ?_⟩, trace, fun other mem ne => ?_⟩
    · rw [trace]
      exact mirrors
    · rw [clients]
      exact h.sockets.sublist (List.filter_sublist.map _)
    · rw [trace]
      exact fits_concat h.fits fits
    · rw [clients]
      exact List.mem_filter.mpr ⟨mem, decide_eq_true ne⟩

/-- What is handled in a round for a client that was polled. -/
def Round.handles (round : Round) (revents : Nat → Revents) (attached : Attached) : ServerEvent :=
  .client attached.number (clientEvent (revents attached.socket) (round.calls attached.socket))
    (round.calls attached.socket).writes

/-- All clients that were polled are handled, each of them once. -/
lemma PollServer.Sound.handleAll {round : Round} (revents : Nat → Revents)
    (received : ∀ socket bytes, .received bytes ∈ (round.calls socket).recvs →
      bytes.length ≤ readChunkSize)
    (polled : List Attached) (distinct : (polled.map (·.socket)).Nodup)
    (h : s.Sound clock initial others) (there : ∀ attached ∈ polled, attached ∈ s.clients) :
    let next := (polled.map (·.socket)).foldl
      (fun s socket => s.handleClient clock (revents socket) (round.calls socket) socket) s
    next.Sound clock initial others ∧ next.trace = s.trace ++ polled.map (round.handles revents) := by
  induction polled generalizing s with
  | nil => exact ⟨h, (List.append_nil _).symm⟩
  | cons attached polled ih =>
    obtain ⟨new, distinct⟩ := List.nodup_cons.mp distinct
    obtain ⟨here, later⟩ := List.forall_mem_cons.mp there
    obtain ⟨sound, trace, frame⟩ := h.handleClient here (revents attached.socket)
      (received attached.socket)
    obtain ⟨sound', trace'⟩ := ih distinct sound fun other mem =>
      frame other (later other mem) fun same => new (List.mem_map.mpr ⟨other, mem, same⟩)
    refine ⟨sound', trace'.trans ?_⟩
    rw [trace, List.concat_eq_append, List.append_assoc]
    rfl

/-- Nothing changes for the clients. -/
lemma PollServer.Sound.background {s' : PollServer} (h : s.Sound clock initial others)
    (event : ServerEvent) (fits : event.Fits)
    (core : s'.core = ((Server.run clock { core := initial } s.trace).step clock event).core)
    (kept : ((Server.run clock { core := initial } s.trace).step clock event).connections =
      (Server.run clock { core := initial } s.trace).connections)
    (trace : s'.trace = s.trace.concat event)
    (same : s'.clients = s.clients ∧ s'.descriptors = s.descriptors ∧ s'.accepted = s.accepted ∧
      s'.closeErrors = s.closeErrors) : s'.Sound clock initial others := by
  obtain ⟨clients, descriptors, accepted, closeErrors⟩ := same
  obtain ⟨_, accepted', count, numbers, client, complete⟩ := h.mirrors
  constructor
  · rw [trace, Server.run_concat]
    refine ⟨core, ?_, ?_, ?_, ?_, ?_⟩
    · rw [accepted, kept, accepted']
    · unfold Server.clientCount
      rw [clients, kept, count]
      rfl
    · rw [clients]
      exact numbers
    · rw [clients, kept]
      exact client
    · rw [clients, kept]
      exact complete
  · rw [clients]
    exact h.sockets
  · rw [clients, descriptors]
    exact h.descriptors
  · rw [clients]
    exact h.apart
  · rw [closeErrors]
    exact h.closes
  · rw [trace]
    exact fits_concat h.fits fits

/-- An event of the loop that is about no client. -/
def ServerEvent.Background : ServerEvent → Prop
  | .cycle _ _ _ | .sync _ => True
  | _ => False

/-- The end of a round. -/
lemma PollServer.Sound.cron (h : s.Sound clock initial others) (config : ServerConfig)
    (round : Round) :
    (s.cron config round).Sound clock initial others ∧ ∃ tail, (s.cron config round).trace =
      s.trace ++ tail ∧ ∀ event ∈ tail, event.Background := by
  unfold PollServer.cron
  split
  · refine ⟨h.background (.cycle round.choices 20 round.time) trivial ?_ rfl rfl
      ⟨rfl, rfl, rfl, rfl⟩, [.cycle round.choices 20 round.time], List.concat_eq_append, ?_⟩
    · rw [h.mirrors.core]
      rfl
    · exact List.forall_mem_singleton.mpr trivial
  · exact ⟨h, [], (List.append_nil _).symm, nofun⟩

lemma PollServer.Sound.syncLog (h : s.Sound clock initial others) (round : Round) :
    (s.syncLog round).Sound clock initial others ∧ ∃ tail, (s.syncLog round).trace =
      s.trace ++ tail ∧ ∀ event ∈ tail, event.Background := by
  unfold PollServer.syncLog
  split
  · refine ⟨h.background (.sync round.synced) trivial ?_ rfl rfl
      ⟨rfl, rfl, rfl, rfl⟩, [.sync round.synced], List.concat_eq_append, ?_⟩
    · rw [h.mirrors.core]
      rfl
    · exact List.forall_mem_singleton.mpr trivial
  · exact ⟨h, [], (List.append_nil _).symm, nofun⟩

/-- The clients in the order in which they are walked through. -/
lemma PollServer.exists_polled {order : List Nat} (walked : order.Perm (s.clients.map (·.socket))) :
    ∃ polled : List Attached, polled.Perm s.clients ∧ order = polled.map (·.socket) := by
  have each : List.Forall₂ (fun socket (attached : Attached) => socket = attached.socket)
      (s.clients.map (·.socket)) s.clients :=
    List.forall₂_map_left_iff.mpr (List.forall₂_same.mpr fun _ _ => rfl)
  obtain ⟨polled, same, perm⟩ := List.perm_comp_forall₂ walked each
  refine ⟨polled, perm, ?_⟩
  rwa [← List.forall₂_eq_eq_eq, List.forall₂_map_right_iff]

/-- A round in which `poll` has reported something. -/
lemma PollServer.Sound.ready (h : s.Sound clock initial others) (config : ServerConfig)
    {round : Round} (lawful : round.Lawful s) {listening : Bool} {revents : Nat → Revents}
    (isReady : round.polled = .ready listening revents) :
    (s.round clock config round).Sound clock initial others ∧
    ∃ accepted polled tail, List.Perm polled s.clients ∧ round.order = polled.map (·.socket) ∧
      (∀ event ∈ tail, ServerEvent.Background event) ∧
      (s.round clock config round).trace = s.trace ++ (List.replicate accepted .accept ++
        (polled.map (round.handles revents) ++ tail)) := by
  obtain ⟨polled, perm, order⟩ := exists_polled lawful.order
  have distinct : (polled.map (·.socket)).Nodup := (perm.map _).nodup_iff.mpr h.sockets
  obtain ⟨begun, isBegun⟩ : ∃ begun, begun = if listening then s.acceptClients round.accepts else s :=
    ⟨_, rfl⟩
  have accepts : begun.Sound clock initial others ∧
      (∃ count, begun.trace = s.trace ++ List.replicate count .accept) ∧
      s.clients <+: begun.clients := by
    rw [isBegun]
    split
    · exact h.acceptClients lawful.fresh
    · exact ⟨h, ⟨0, (List.append_nil _).symm⟩, List.prefix_rfl⟩
  obtain ⟨sound, ⟨count, trace⟩, kept⟩ := accepts
  obtain ⟨sound', trace'⟩ := sound.handleAll revents lawful.received polled distinct
    fun attached mem => kept.subset (perm.subset mem)
  obtain ⟨sound'', tail, trace'', background⟩ := sound'.cron config round
  obtain ⟨sound₃, tail', trace₃, background'⟩ := sound''.syncLog round
  have isNext : s.round clock config round = PollServer.syncLog round (PollServer.cron config round
      ((polled.map (·.socket)).foldl (fun s socket =>
        s.handleClient clock (revents socket) (round.calls socket) socket) begun)) := by
    unfold PollServer.round
    rw [isReady, order, isBegun]
  rw [isNext]
  refine ⟨sound₃, count, polled, tail ++ tail', perm, order,
    List.forall_mem_append.mpr ⟨background, background'⟩, ?_⟩
  rw [trace₃, trace'', trace', trace]
  simp only [List.append_assoc]

lemma PollServer.Sound.round (h : s.Sound clock initial others) (config : ServerConfig)
    {round : Round} (lawful : round.Lawful s) :
    (s.round clock config round).Sound clock initial others := by
  cases isReady : round.polled with
  | interrupted | failed =>
    have same : s.round clock config round = s := by
      unfold PollServer.round
      rw [isReady]
    rw [same]
    exact h
  | ready listening revents => exact (h.ready config lawful isReady).1

lemma PollServer.sound_start (clock : Nat → Int) (config : ServerConfig) (core : Core)
    (others : Finset Nat) (now : Int) : (start config core others now).Sound clock core others where
  mirrors := ⟨rfl, rfl, rfl, List.nodup_nil, nofun, nofun⟩
  sockets := List.nodup_nil
  descriptors := (Finset.union_empty others).symm
  apart := nofun
  closes := rfl
  fits := nofun

lemma PollServer.Reachable.sound {config : ServerConfig} {core : Core} {now : Int}
    (reachable : Reachable clock config (PollServer.start config core others now) s) :
    s.Sound clock core others := by
  induction reachable with
  | start => exact sound_start clock config core others now
  | round _ lawful ih => exact ih.round config lawful

/-- All clients are closed. -/
lemma PollServer.closeAll (clients : List Attached) (distinct : (clients.map (·.socket)).Nodup)
    (apart : ∀ attached ∈ clients, attached.socket ∉ others)
    (descriptors : s.descriptors = others ∪ (clients.map (·.socket)).toFinset) :
    let next := clients.foldl (fun s attached => s.closeSocket attached.socket) s
    next.descriptors = others ∧ next.closeErrors = s.closeErrors := by
  induction clients generalizing s with
  | nil => exact ⟨descriptors.trans (Finset.union_empty others), rfl⟩
  | cons attached clients ih =>
    obtain ⟨new, distinct⟩ := List.nodup_cons.mp distinct
    obtain ⟨here, later⟩ := List.forall_mem_cons.mp apart
    have opened : attached.socket ∈ s.descriptors := by
      rw [descriptors]
      exact Finset.mem_union_right _ (List.mem_toFinset.mpr List.mem_cons_self)
    have closed : s.closeSocket attached.socket =
        { s with descriptors := s.descriptors.erase attached.socket } := if_pos opened
    rw [List.foldl_cons, closed]
    refine ih distinct later ?_
    show s.descriptors.erase attached.socket = _
    rw [descriptors, List.map_cons, List.toFinset_cons, Finset.union_insert,
      Finset.erase_insert]
    rw [Finset.mem_union, List.mem_toFinset, not_or]
    exact ⟨here, new⟩

/-- How a run ends. -/
lemma PollServer.Sound.run (h : s.Sound clock initial others) (config : ServerConfig)
    (rounds : List Round) (lawful : LawfulRun clock config rounds s) :
    ∃ last : PollServer, last.Sound clock initial others ∧
      (s.run clock config rounds = (0, last.shutdown) ∨ s.run clock config rounds = (1, last)) := by
  induction rounds generalizing s with
  | nil => exact ⟨s, h, .inl rfl⟩
  | cons round rounds ih =>
    obtain ⟨here, later⟩ := lawful
    unfold PollServer.run
    split
    · exact ⟨s, h, .inr rfl⟩
    · exact ih (h.round config here) later

end Sound

/-- A connection that cannot be set up, and then one that can. -/
def acceptingRound : Round where
  polled := .ready true fun _ => {}
  accepts := [.accepted 4 false, .interrupted, .accepted 4 true]
  now := 0
  choices := ⟨fun _ => 0, fun _ => true⟩
  time := 0

/-- A client sends a request, and the background task is due. -/
def pingRound : Round where
  order := [4]
  polled := .ready false fun _ => { input := true }
  calls := fun _ => { recvs := [.received (ascii "PING\r\n")], sends := [.sent 7] }
  now := 100000000
  choices := ⟨fun _ => 0, fun _ => true⟩
  time := 0

lemma acceptingRound_lawful : acceptingRound.Lawful (.start {} {} {0, 1, 2, 3} 0) where
  order := .refl _
  fresh := ⟨by decide, by decide, trivial⟩
  asked := nofun
  received := nofun

lemma pingRound_lawful : pingRound.Lawful
    (PollServer.round (fun _ => 0) {} (.start {} {} {0, 1, 2, 3} 0) acceptingRound) where
  order := .refl _
  fresh := trivial
  asked := by
    rintro _ _ ⟨⟩ attached mem _
    cases List.mem_singleton.mp mem
    rfl
  received := by
    intro socket bytes mem
    cases List.mem_singleton.mp mem
    decide

/-- No descriptor leaks and none is closed twice: however the run ends, exactly the clients that are
connected have a descriptor besides those that were open before, each its own, and when a shutdown
is requested, all of them are closed. -/
theorem poll_closes (clock : Nat → Int) (config : ServerConfig) (core : Core) (others : Finset Nat)
    (now : Int) (rounds : List Round)
    (lawful : PollServer.LawfulRun clock config rounds (.start config core others now)) :
    let (status, s) := (PollServer.start config core others now).run clock config rounds
    s.closeErrors = 0 ∧ (s.clients.map (·.socket)).Nodup ∧
      s.descriptors = others ∪ (s.clients.map (·.socket)).toFinset ∧
      (∀ attached ∈ s.clients, attached.socket ∉ others) ∧
      (status = 0 ∧ s.clients = [] ∨ status = 1) := by
  obtain ⟨last, sound, ended | ended⟩ :=
    (PollServer.sound_start clock config core others now).run config rounds lawful
  · rw [ended]
    obtain ⟨descriptors, closes⟩ :=
      PollServer.closeAll last.clients sound.sockets sound.apart sound.descriptors
    refine ⟨closes.trans sound.closes, List.nodup_nil, ?_, nofun, .inl ⟨rfl, rfl⟩⟩
    exact descriptors.trans (Finset.union_empty others).symm
  · rw [ended]
    exact ⟨sound.closes, sound.sockets, sound.descriptors, sound.apart, .inr rfl⟩

theorem poll_closes_ping :
    let (status, s) := (PollServer.start {} {} {0, 1, 2, 3} 0).run (fun _ => 0) {}
      [acceptingRound, pingRound]
    s.closeErrors = 0 ∧ (s.clients.map (·.socket)).Nodup ∧
      s.descriptors = {0, 1, 2, 3} ∪ (s.clients.map (·.socket)).toFinset ∧
      (∀ attached ∈ s.clients, attached.socket ∉ ({0, 1, 2, 3} : Finset Nat)) ∧
      (status = 0 ∧ s.clients = [] ∨ status = 1) :=
  poll_closes (fun _ => 0) {} {} {0, 1, 2, 3} 0 [acceptingRound, pingRound]
    ⟨acceptingRound_lawful, pingRound_lawful, trivial⟩

/-- Every run of the poll loop is a run of the event loop on the events that it has traced, and these
are events that the operating system allows. -/
theorem poll_refines (clock : Nat → Int) (config : ServerConfig) (core : Core) (others : Finset Nat)
    (now : Int) (s : PollServer)
    (reachable : PollServer.Reachable clock config (.start config core others now) s) :
    s.Mirrors (Server.run clock { core := core } s.trace) ∧ ∀ event ∈ s.trace, event.Fits :=
  ⟨reachable.sound.mirrors, reachable.sound.fits⟩

theorem poll_refines_ping :
    let s := ((PollServer.start {} {} {0, 1, 2, 3} 0).round (fun _ => 0) {} acceptingRound).round
      (fun _ => 0) {} pingRound
    s.Mirrors (Server.run (fun _ => 0) { core := {} } s.trace) ∧ ∀ event ∈ s.trace, event.Fits :=
  poll_refines (fun _ => 0) {} {} {0, 1, 2, 3} 0 _
    (.round (.round .start acceptingRound_lawful) pingRound_lawful)

/-- What a round does: it accepts connections, then it handles every client that was connected when
`poll` was called, each of them once and with what `poll` has reported for it, and then it runs the
background tasks. Nothing is read from a client whose replies pile up, unless it has hung up. -/
theorem poll_round (clock : Nat → Int) (config : ServerConfig) (core : Core) (others : Finset Nat)
    (now : Int) (s : PollServer)
    (reachable : PollServer.Reachable clock config (.start config core others now) s) (round : Round)
    (lawful : round.Lawful s) (listening : Bool) (revents : Nat → Revents)
    (isReady : round.polled = .ready listening revents) :
    ∃ accepted polled tail, List.Perm polled s.clients ∧ round.order = polled.map (·.socket) ∧
      (∀ event ∈ tail, ServerEvent.Background event) ∧
      (s.round clock config round).trace = s.trace ++ (List.replicate accepted .accept ++
        (polled.map (round.handles revents) ++ tail)) ∧
      ∀ attached ∈ polled, outputHighWatermark ≤ attached.client.pendingOutput →
        (revents attached.socket).hangup = false →
        (clientEvent (revents attached.socket) (round.calls attached.socket)).readable = false := by
  obtain ⟨_, accepted, polled, tail, perm, order, background, trace⟩ :=
    reachable.sound.ready config lawful isReady
  refine ⟨accepted, polled, tail, perm, order, background, trace, fun attached mem piled up => ?_⟩
  have silent : (revents attached.socket).input = false := by
    cases reported : (revents attached.socket).input with
    | false => rfl
    | true =>
      have asked := lawful.asked listening revents isReady attached (perm.subset mem) reported
      obtain ⟨below, _⟩ := Bool.and_eq_true_iff.mp asked
      exact absurd (of_decide_eq_true below) (Nat.not_lt.mpr piled)
  show ((revents attached.socket).input || (revents attached.socket).hangup) = false
  rw [silent, up]
  rfl

theorem poll_round_ping :
    let s := (PollServer.start {} {} {0, 1, 2, 3} 0).round (fun _ => 0) {} acceptingRound
    ∃ accepted polled tail, List.Perm polled s.clients ∧ pingRound.order = polled.map (·.socket) ∧
      (∀ event ∈ tail, ServerEvent.Background event) ∧
      (s.round (fun _ => 0) {} pingRound).trace = s.trace ++ (List.replicate accepted .accept ++
        (polled.map (pingRound.handles fun _ => { input := true }) ++ tail)) ∧
      ∀ attached ∈ polled, outputHighWatermark ≤ attached.client.pendingOutput →
        (clientEvent { input := true } (pingRound.calls attached.socket)).readable = false := by
  obtain ⟨accepted, polled, tail, perm, order, background, trace, piled⟩ :=
    poll_round (fun _ => 0) {} {} {0, 1, 2, 3} 0 _ (.round .start acceptingRound_lawful) pingRound
      pingRound_lawful false _ rfl
  exact ⟨accepted, polled, tail, perm, order, background, trace,
    fun attached mem much => piled attached mem much rfl⟩

end FlashKV

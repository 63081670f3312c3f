/-
What the gateway records when a client closes its response: the bytes that were forwarded by then,
and whether the terminal event had been seen.
-/
import ChipTrace.Gateway.Tracker
import ChipTrace.Lib.Json.Basic
import ChipTrace.Lib.Machine

namespace ChipTrace.Gateway

/-- Where the exchange with the upstream is. -/
inductive Phase
  | fetching
  | streaming
  | ended
  deriving DecidableEq

/-- What can happen while a response is forwarded. -/
inductive Event
  | respond (tracked : Bool)
  | chunk (bytes : Bytes)
  | upstreamEnd (failed : Bool)
  | destroy
  | finish
  | close
  deriving DecidableEq

structure Exchange where
  phase : Phase := .fetching
  responseStreamTracker : Option ResponsesSseBoundaryTracker := none
  responseStreamState : Option StreamState := none
  destroyed : Bool := false
  writableEnded : Bool := false
  closeEmitted : Bool := false
  clientResponseFinished : Bool := false
  clientResponseClosedBeforeFinish : Bool := false
  responseBytesForwarded : Nat := 0
  responseBytesForwardedAtClientClose : Option Nat := none
  responseProtocolTerminalObservedAtClientClose : Option Bool := none
  responseFramingDoneObservedAtClientClose : Option Bool := none
  upstreamResponseCompleted : Bool := false
  deriving DecidableEq

namespace Exchange

variable (decode : Bytes → List Char)

/-- The body of the loop over the chunks of the response. -/
def forward (exchange : Exchange) (chunk : Bytes) : Exchange :=
  let tracker := exchange.responseStreamTracker.map fun tracker => tracker.observe decode chunk
  let observed := { exchange with
    responseStreamTracker := tracker
    responseStreamState := tracker.map ResponsesSseBoundaryTracker.snapshot }
  if !exchange.writableEnded && !exchange.destroyed then
    { observed with
      responseBytesForwarded := exchange.responseBytesForwarded + chunk.length }
  else observed

/-- After the loop the response is ended, unless a failure destroys it. -/
def upstreamEnd (exchange : Exchange) (failed : Bool) : Exchange :=
  let ended := { exchange with phase := .ended, upstreamResponseCompleted := !failed }
  let answered :=
    if failed && !ended.destroyed then
      -- once the headers are sent a failure can only destroy the response
      if exchange.phase = .streaming then
        if !ended.writableEnded then { ended with destroyed := true } else ended
      else { ended with writableEnded := true }
    else ended
  if !answered.writableEnded && !answered.destroyed then { answered with writableEnded := true }
  else answered

def onClose (exchange : Exchange) : Exchange :=
  let closed := { exchange with closeEmitted := true }
  if !exchange.clientResponseFinished then
    let snapshot := exchange.responseStreamTracker.map ResponsesSseBoundaryTracker.snapshot
    { closed with
      clientResponseClosedBeforeFinish := true
      responseBytesForwardedAtClientClose := some exchange.responseBytesForwarded
      responseProtocolTerminalObservedAtClientClose :=
        snapshot.map StreamState.protocolTerminalObserved
      responseFramingDoneObservedAtClientClose := snapshot.map StreamState.framingDoneObserved }
  else closed

/-- Events that cannot happen in a phase leave the exchange alone. -/
def step (exchange : Exchange) : Event → Exchange
  | .respond tracked =>
      if exchange.phase = .fetching then
        { exchange with
          phase := .streaming, responseStreamTracker := if tracked then some {} else none }
      else exchange
  | .chunk bytes => if exchange.phase = .streaming then exchange.forward decode bytes else exchange
  | .upstreamEnd failed => if exchange.phase = .ended then exchange else exchange.upstreamEnd failed
  | .destroy => { exchange with destroyed := true }
  | .finish => { exchange with clientResponseFinished := true }
  | .close => if exchange.closeEmitted then exchange else exchange.onClose

def run (events : List Event) : Exchange := Machine.run (step decode) {} events

def protocolTerminalByteOffset (exchange : Exchange) : Option Nat :=
  exchange.responseStreamState.bind StreamState.protocolTerminalByteOffset

end Exchange

/-- What had arrived and what had been written when the response closed. -/
structure Closing where
  tracked : Bool
  arrived : Bytes
  written : Bytes
  deriving DecidableEq

/-- The bytes of a response: those that arrived from the upstream, those that were written before
the response was destroyed, and how both stood when it closed before it was finished. -/
structure History where
  phase : Phase := .fetching
  tracked : Bool := false
  writable : Bool := true
  finished : Bool := false
  closed : Bool := false
  arrived : Bytes := []
  written : Bytes := []
  closing : Option Closing := none
  deriving DecidableEq

namespace History

def step (history : History) : Event → History
  | .respond tracked =>
      if history.phase = .fetching then { history with phase := .streaming, tracked := tracked }
      else history
  | .chunk bytes =>
      if history.phase = .streaming then
        { history with
          arrived := history.arrived ++ bytes
          written := if history.writable then history.written ++ bytes else history.written }
      else history
  | .upstreamEnd _ => { history with phase := .ended, writable := false }
  | .destroy => { history with writable := false }
  | .finish => { history with finished := true }
  | .close =>
      if history.closed then history
      else { history with
        closed := true
        closing :=
          if history.finished then none
          else some ⟨history.tracked, history.arrived, history.written⟩ }

def ofEvents (events : List Event) : History := Machine.run step {} events

end History

section Simulation

variable {decode : Bytes → List Char}

/-- The tracker has read what arrived. -/
structure Tracks (decode : Bytes → List Char) (arrived : Bytes)
    (tracker : ResponsesSseBoundaryTracker) : Prop where
  reads : Reads tracker (Scan.start.feedAll decode arrived)
  count : tracker.totalBytes = arrived.length

/-- An exchange and what has happened to it. -/
structure Follows (decode : Bytes → List Char) (exchange : Exchange) (history : History) :
    Prop where
  phase : exchange.phase = history.phase
  tracked : exchange.responseStreamTracker.isSome = history.tracked
  tracks : ∀ tracker, exchange.responseStreamTracker = some tracker →
    Tracks decode history.arrived tracker
  untracked : history.tracked = false → exchange.responseStreamState = none
  offset : ∀ tracker, exchange.responseStreamTracker = some tracker →
    exchange.protocolTerminalByteOffset = tracker.protocolTerminalByteOffset
  fetching : history.phase = .fetching → history.tracked = false ∧ history.arrived = []
  writable : (!exchange.writableEnded && !exchange.destroyed) = history.writable
  ended : history.phase = .ended → history.writable = false
  finished : exchange.clientResponseFinished = history.finished
  closed : exchange.closeEmitted = history.closed
  forwarded : exchange.responseBytesForwarded = history.written.length
  written : history.written <+: history.arrived
  caughtUp : history.writable = true → history.written = history.arrived
  unclosed : history.closed = false → history.closing = none
  closedBefore : exchange.clientResponseClosedBeforeFinish = history.closing.isSome
  forwardedAtClose : exchange.responseBytesForwardedAtClientClose =
    history.closing.map fun closing => closing.written.length
  terminalAtClose : exchange.responseProtocolTerminalObservedAtClientClose =
    history.closing.bind fun closing =>
      if closing.tracked then
        some (Scan.start.feedAll decode closing.arrived).terminal.isSome
      else none
  closing : ∀ closing ∈ history.closing, closing.arrived <+: history.arrived ∧
    closing.written <+: history.written ∧ closing.written <+: closing.arrived ∧
      (closing.tracked = true → history.tracked = true)

theorem follows_start : Follows decode {} {} where
  phase := rfl
  tracked := rfl
  tracks := fun _ hnone => by cases hnone
  untracked := fun _ => rfl
  offset := fun _ hnone => by cases hnone
  fetching := fun _ => ⟨rfl, rfl⟩
  writable := rfl
  ended := fun hended => by cases hended
  finished := rfl
  closed := rfl
  forwarded := rfl
  written := List.prefix_rfl
  caughtUp := fun _ => rfl
  unclosed := fun _ => rfl
  closedBefore := rfl
  forwardedAtClose := rfl
  terminalAtClose := rfl
  closing := fun _ hnone => by cases hnone

variable {exchange : Exchange} {history : History}

theorem Follows.respond (h : Follows decode exchange history) (tracked : Bool) :
    Follows decode (exchange.step decode (.respond tracked)) (history.step (.respond tracked)) := by
  rw [Exchange.step, History.step, h.phase]
  by_cases hphase : history.phase = .fetching
  · rw [if_pos hphase, if_pos hphase]
    obtain ⟨huntracked, hempty⟩ := h.fetching hphase
    have hstate := h.untracked huntracked
    have hfresh : ∀ tracker, (if tracked then some {} else none) = some tracker →
        tracker = ({} : ResponsesSseBoundaryTracker) := by
      intro tracker htracker
      cases tracked with
      | false => cases htracker
      | true => exact (Option.some.inj htracker).symm
    exact { h with
      phase := rfl
      tracked := by cases tracked <;> rfl
      tracks := by
        intro tracker htracker
        rw [hfresh tracker htracker]
        refine ⟨?_, ?_⟩
        · rw [hempty]
          exact reads_start
        · rw [hempty]
          rfl
      untracked := fun _ => hstate
      offset := by
        intro tracker htracker
        rw [hfresh tracker htracker, Exchange.protocolTerminalByteOffset, hstate]
        rfl
      fetching := fun hfetching => by cases hfetching
      ended := fun hended => by cases hended
      closing := fun closing hclosing => by
        obtain ⟨harrived, hwritten, hboth, htracked⟩ := h.closing closing hclosing
        refine ⟨harrived, hwritten, hboth, fun hclose => ?_⟩
        rw [huntracked] at htracked
        cases htracked hclose }
  · rw [if_neg hphase, if_neg hphase]
    exact h

/-- The tracker reads a chunk whether or not it is written. -/
theorem Tracks.observe {tracker : ResponsesSseBoundaryTracker} {arrived : Bytes}
    (h : Tracks decode arrived tracker) (bytes : Bytes) :
    Tracks decode (arrived ++ bytes) (tracker.observe decode bytes) := by
  refine ⟨?_, ?_⟩
  · rw [Scan.feedAll_append]
    refine h.reads.observe ?_ bytes
    rw [Scan.feedAll_offset, h.count, Scan.start, Nat.zero_add]
  · rw [totalBytes_observe, h.count, List.length_append]

theorem Follows.chunk (h : Follows decode exchange history) (bytes : Bytes) :
    Follows decode (exchange.step decode (.chunk bytes)) (history.step (.chunk bytes)) := by
  rw [Exchange.step, History.step, h.phase]
  by_cases hphase : history.phase = .streaming
  · rw [if_pos hphase, if_pos hphase, Exchange.forward]
    have htracks : ∀ tracker, (exchange.responseStreamTracker.map fun tracker =>
        tracker.observe decode bytes) = some tracker →
          Tracks decode (history.arrived ++ bytes) tracker := by
      intro tracker htracker
      obtain ⟨before, hbefore, rfl⟩ := Option.map_eq_some_iff.mp htracker
      exact (h.tracks before hbefore).observe bytes
    have hoffset : ∀ tracker, (exchange.responseStreamTracker.map fun tracker =>
        tracker.observe decode bytes) = some tracker →
          ((exchange.responseStreamTracker.map fun tracker => tracker.observe decode bytes).map
            ResponsesSseBoundaryTracker.snapshot).bind StreamState.protocolTerminalByteOffset =
              tracker.protocolTerminalByteOffset := by
      intro tracker htracker
      rw [htracker]
      rfl
    have hclosing : ∀ written closing, closing ∈ history.closing →
        history.written <+: written → closing.arrived <+: history.arrived ++ bytes ∧
          closing.written <+: written ∧ closing.written <+: closing.arrived ∧
            (closing.tracked = true → history.tracked = true) := by
      intro written closing hclosing hwritten
      obtain ⟨harrived, hearlier, hboth, htracked⟩ := h.closing closing hclosing
      exact ⟨harrived.trans (List.prefix_append _ _), hearlier.trans hwritten, hboth, htracked⟩
    have huntracked : history.tracked = false →
        ((exchange.responseStreamTracker.map fun tracker => tracker.observe decode bytes).map
          ResponsesSseBoundaryTracker.snapshot) = none := by
      intro huntracked
      rw [← h.tracked, Option.isSome_eq_false_iff, Option.isNone_iff_eq_none] at huntracked
      rw [huntracked]
      rfl
    have hfetching : history.phase = .fetching →
        history.tracked = false ∧ history.arrived ++ bytes = [] := by
      intro hfetching
      rw [hphase] at hfetching
      cases hfetching
    rw [h.writable]
    by_cases hwritable : history.writable = true
    · rw [if_pos hwritable]
      simp only [hwritable, if_true]
      have hcaughtUp : history.written ++ bytes <+: history.arrived ++ bytes :=
        ⟨[], by rw [List.append_nil, h.caughtUp hwritable]⟩
      exact { h with
        tracked := by rw [Option.isSome_map, h.tracked]
        tracks := htracks
        untracked := huntracked
        offset := hoffset
        fetching := hfetching
        writable := h.writable.trans hwritable
        ended := fun hended => by
          rw [hphase] at hended
          cases hended
        forwarded := by rw [h.forwarded, List.length_append]
        written := hcaughtUp
        caughtUp := fun _ => by rw [h.caughtUp hwritable]
        closing := fun closing hmem => hclosing _ closing hmem (List.prefix_append _ _) }
    · rw [if_neg hwritable]
      simp only [hwritable, Bool.false_eq_true, if_false]
      exact { h with
        tracked := by rw [Option.isSome_map, h.tracked]
        tracks := htracks
        untracked := huntracked
        offset := hoffset
        fetching := hfetching
        writable := h.writable.trans (Bool.eq_false_iff.mpr hwritable)
        ended := fun _ => rfl
        written := h.written.trans (List.prefix_append _ _)
        caughtUp := fun hopen => by cases hopen
        closing := fun closing hmem => hclosing _ closing hmem List.prefix_rfl }
  · rw [if_neg hphase, if_neg hphase]
    exact h

/-- Whether it ends or fails, nothing is written after the upstream. -/
theorem upstreamEnd_eq (exchange : Exchange) (failed : Bool) :
    ∃ destroyed writableEnded, (!writableEnded && !destroyed) = false ∧
      exchange.upstreamEnd failed =
        { exchange with
          phase := .ended, destroyed := destroyed, writableEnded := writableEnded
          upstreamResponseCompleted := !failed } := by
  rw [Exchange.upstreamEnd]
  simp only
  split_ifs with hfailed hstreaming hended hopen hopen hopen hopen <;>
    refine ⟨_, _, ?_, rfl⟩ <;> simp_all

theorem Follows.upstreamEnd (h : Follows decode exchange history) (failed : Bool) :
    Follows decode (exchange.step decode (.upstreamEnd failed))
      (history.step (.upstreamEnd failed)) := by
  rw [Exchange.step, History.step, h.phase]
  by_cases hphase : history.phase = .ended
  · rw [if_pos hphase]
    exact { h with
      phase := h.phase.trans hphase
      fetching := fun hfetching => by cases hfetching
      writable := h.writable.trans (h.ended hphase)
      ended := fun _ => rfl
      caughtUp := fun hopen => by cases hopen }
  · rw [if_neg hphase]
    obtain ⟨destroyed, writableEnded, hclosed, hexchange⟩ := upstreamEnd_eq exchange failed
    rw [hexchange]
    exact { h with
      phase := rfl
      fetching := fun hfetching => by cases hfetching
      writable := hclosed
      ended := fun _ => rfl
      caughtUp := fun hopen => by cases hopen }

theorem Follows.destroy (h : Follows decode exchange history) :
    Follows decode (exchange.step decode .destroy) (history.step .destroy) :=
  { h with
    writable := by rw [Exchange.step, History.step, Bool.not_true, Bool.and_false]
    ended := fun _ => rfl
    caughtUp := fun hopen => by cases hopen }

theorem Follows.finish (h : Follows decode exchange history) :
    Follows decode (exchange.step decode .finish) (history.step .finish) :=
  { h with finished := rfl }

/-- The terminal that a tracker has seen is the last one that the scan has. -/
theorem Tracks.observed {tracker : ResponsesSseBoundaryTracker} {arrived : Bytes}
    (h : Tracks decode arrived tracker) :
    tracker.snapshot.protocolTerminalObserved =
      (Scan.start.feedAll decode arrived).terminal.isSome := by
  rw [ResponsesSseBoundaryTracker.snapshot, h.reads.event, h.reads.terminal]

theorem Follows.close (h : Follows decode exchange history) :
    Follows decode (exchange.step decode .close) (history.step .close) := by
  rw [Exchange.step, History.step, h.closed]
  by_cases hclosed : history.closed = true
  · rw [if_pos hclosed, if_pos hclosed]
    exact h
  · rw [if_neg hclosed, if_neg hclosed, Exchange.onClose, h.finished]
    have hnone := h.unclosed (Bool.eq_false_iff.mpr hclosed)
    by_cases hfinished : history.finished = true
    · simp only [hfinished, Bool.not_true, Bool.false_eq_true, if_false, if_true]
      exact { h with
        finished := rfl
        closed := rfl
        unclosed := fun hopen => by cases hopen
        closedBefore := by rw [h.closedBefore, hnone]
        forwardedAtClose := by rw [h.forwardedAtClose, hnone]
        terminalAtClose := by rw [h.terminalAtClose, hnone]
        closing := fun closing hclosing => by cases hclosing }
    · rw [Bool.not_eq_true] at hfinished
      simp only [hfinished, Bool.not_false, Bool.false_eq_true, if_false, if_true]
      exact { h with
        finished := rfl
        closed := rfl
        unclosed := fun hopen => by cases hopen
        closedBefore := rfl
        forwardedAtClose := by rw [h.forwarded, Option.map_some]
        terminalAtClose := by
          rw [Option.bind_some, ← h.tracked]
          cases htracker : exchange.responseStreamTracker with
          | none => rfl
          | some tracker =>
              rw [Option.map_some, Option.map_some, (h.tracks tracker htracker).observed]
              rfl
        closing := fun closing hclosing => by
          obtain rfl := Option.some.inj hclosing
          exact ⟨List.prefix_rfl, List.prefix_rfl, h.written, id⟩ }

/-- Every order of events is followed. -/
theorem follows (decode : Bytes → List Char) (events : List Event) :
    Follows decode (Exchange.run decode events) (History.ofEvents events) := by
  induction events using List.reverseRecOn with
  | nil => exact follows_start
  | append_singleton events event ih =>
      rw [Exchange.run, History.ofEvents, Machine.run_append, Machine.run_append]
      cases event with
      | respond tracked => exact ih.respond tracked
      | chunk bytes => exact ih.chunk bytes
      | upstreamEnd failed => exact ih.upstreamEnd failed
      | destroy => exact ih.destroy
      | finish => exact ih.finish
      | close => exact ih.close

end Simulation

section Delivery

def numberOrNull (value : Option Nat) : Json := (value.map fun value => .num value).getD .null

def flagOrNull (value : Option Bool) : Json := (value.map .bool).getD .null

/-- The fields of a capture about its delivery. -/
def Exchange.record (exchange : Exchange) : Json :=
  Json.mkObj [("clientResponseClosedBeforeFinish", .bool exchange.clientResponseClosedBeforeFinish),
    ("responseBytesForwarded", .num exchange.responseBytesForwarded),
    ("responseBytesForwardedAtClientClose",
      numberOrNull exchange.responseBytesForwardedAtClientClose),
    ("responseFramingDoneByteOffset",
      numberOrNull (exchange.responseStreamState.bind StreamState.framingDoneByteOffset)),
    ("responseFramingDoneObservedAtClientClose",
      flagOrNull exchange.responseFramingDoneObservedAtClientClose),
    ("responseProtocolTerminalByteOffset", numberOrNull exchange.protocolTerminalByteOffset),
    ("responseProtocolTerminalObservedAtClientClose",
      flagOrNull exchange.responseProtocolTerminalObservedAtClientClose)]

def clientDeliveryBoundary (capture : Json) : Json :=
  Json.mkObj ([("response_bytes_forwarded", "responseBytesForwarded"),
      ("response_bytes_forwarded_at_client_close", "responseBytesForwardedAtClientClose"),
      ("client_response_closed_before_finish", "clientResponseClosedBeforeFinish"),
      ("protocol_terminal_observed_at_client_close",
        "responseProtocolTerminalObservedAtClientClose"),
      ("framing_done_observed_at_client_close", "responseFramingDoneObservedAtClientClose"),
      ("protocol_terminal_byte_offset", "responseProtocolTerminalByteOffset"),
      ("framing_done_byte_offset", "responseFramingDoneByteOffset")].map fun (field, source) =>
    (field, (capture.get? source).getD .null))

/-- The value at a path. -/
def pointer (value : Json) (path : List String) : Option Json := path.foldlM Json.get? value

/-- The node of a call whose bytes the client gave up before they were delivered. -/
def explicitlyAbandonedModelCallNode (interaction call : Json) : Option String := do
  let response ← interaction.get? "response"
  if (response.get? "model_status").bind Json.asStr != some "completed" ||
      (response.get? "upstream_transport_status").bind Json.asStr != some "completed" ||
      (response.get? "client_delivery_status").bind Json.asStr != some "cancelled" ||
      (pointer interaction ["integrity", "protocol_complete"]).bind Json.asBool != some true then
    none
  else
    let boundary ← pointer interaction ["extensions", "wire", "client_delivery_boundary"]
    if (boundary.get? "client_response_closed_before_finish").bind Json.asBool != some true then
      none
    else if (boundary.get? "protocol_terminal_observed_at_client_close").bind Json.asBool !=
        some false then
      none
    else
      let closeOffset ←
        (boundary.get? "response_bytes_forwarded_at_client_close").bind Json.asU64
      let start ← (call.get? "source_byte_start").bind Json.asU64
      let finish ← (call.get? "source_byte_end").bind Json.asU64
      if finish < closeOffset || finish < start then none
      else
        let interactionId ← (interaction.get? "interaction_id").bind Json.asStr
        let callId ← ((call.get? "call_id").bind Json.asStr).filter fun id => !Text.isBlank id
        return s!"model-call:{interactionId}:{callId}"

/-- What is known of a call that is excused. -/
theorem excused_spec {interaction call : Json} {node : String}
    (hnode : explicitlyAbandonedModelCallNode interaction call = some node) :
    ∃ boundary closeOffset finish,
      pointer interaction ["extensions", "wire", "client_delivery_boundary"] = some boundary ∧
      (boundary.get? "protocol_terminal_observed_at_client_close").bind Json.asBool =
        some false ∧
      (boundary.get? "response_bytes_forwarded_at_client_close").bind Json.asU64 =
        some closeOffset ∧
      (call.get? "source_byte_end").bind Json.asU64 = some finish ∧ closeOffset ≤ finish := by
  simp only [explicitlyAbandonedModelCallNode, Option.bind_eq_bind,
    Option.bind_eq_some_iff] at hnode
  obtain ⟨_, _, hnode⟩ := hnode
  split at hnode
  · cases hnode
  · simp only [Option.bind_eq_some_iff] at hnode
    obtain ⟨boundary, hboundary, hnode⟩ := hnode
    split at hnode
    · cases hnode
    · split at hnode
      · cases hnode
      · rename_i hseen
        simp only [Option.bind_eq_some_iff] at hnode
        obtain ⟨closeOffset, hclose, _, _, finish, hfinish, hnode⟩ := hnode
        split at hnode
        · cases hnode
        · rename_i hrange
          simp only [Bool.or_eq_true, decide_eq_true_eq, not_or, not_lt] at hrange
          refine ⟨boundary, closeOffset, finish, hboundary, ?_, ?_, ?_, hrange.1⟩
          · simpa using hseen
          · simpa only [Option.bind_eq_some_iff] using hclose
          · simpa only [Option.bind_eq_some_iff] using hfinish

end Delivery

section Consistency

variable {decode : Bytes → List Char} {exchange : Exchange} {history : History}

/-- If a terminal event had arrived when the response closed, every terminal event of the stream
ends within the bytes that were written by then. -/
def TerminalsForwarded (decode : Bytes → List Char) (history : History) : Prop :=
  ∀ closing ∈ history.closing, closing.tracked = true →
    (∃ offset, TerminalEndsAt decode closing.arrived offset) →
      ∀ offset, TerminalEndsAt decode history.arrived offset → offset ≤ closing.written.length

/-- The terminal event that was seen at the close ends within the bytes forwarded by then. -/
def TerminalWithinForwarded (exchange : Exchange) : Prop :=
  exchange.responseProtocolTerminalObservedAtClientClose = some true →
    ∃ offset ∈ exchange.protocolTerminalByteOffset,
      ∃ forwarded ∈ exchange.responseBytesForwardedAtClientClose, offset ≤ forwarded

theorem Follows.observedAtClose (h : Follows decode exchange history) {seen : Bool}
    (hseen : exchange.responseProtocolTerminalObservedAtClientClose = some seen) :
    ∃ closing ∈ history.closing, closing.tracked = true ∧
      exchange.responseBytesForwardedAtClientClose = some closing.written.length ∧
      (seen = true ↔ ∃ offset, TerminalEndsAt decode closing.arrived offset) := by
  rw [h.terminalAtClose, Option.bind_eq_some_iff] at hseen
  obtain ⟨closing, hclosing, hseen⟩ := hseen
  by_cases htracked : closing.tracked = true
  · rw [if_pos htracked, Option.some.injEq] at hseen
    refine ⟨closing, hclosing, htracked, ?_, ?_⟩
    · rw [h.forwardedAtClose, hclosing]
      rfl
    · obtain ⟨hfound, hlast⟩ := scan_terminal decode closing.arrived
      rw [← hseen, Option.isSome_iff_exists]
      constructor
      · rintro ⟨offset, hoffset⟩
        exact ⟨offset, hfound offset hoffset⟩
      · rintro ⟨offset, hends⟩
        obtain ⟨last, hterminal, _⟩ := hlast offset hends
        exact ⟨last, hterminal⟩
  · rw [if_neg htracked] at hseen
    cases hseen

/-- The recorded offset is the end of the last terminal event that arrived. -/
theorem Follows.recordedOffset (h : Follows decode exchange history)
    (htracked : history.tracked = true) :
    exchange.protocolTerminalByteOffset = (Scan.start.feedAll decode history.arrived).terminal := by
  rw [← h.tracked] at htracked
  obtain ⟨tracker, htracker⟩ := Option.isSome_iff_exists.mp htracked
  rw [h.offset tracker htracker, (h.tracks tracker htracker).reads.terminal]

theorem TerminalEndsAt.of_prefix {stream whole : Bytes} {offset : Nat}
    (hends : TerminalEndsAt decode stream offset) (hwhole : stream <+: whole) :
    TerminalEndsAt decode whole offset := by
  obtain ⟨more, rfl⟩ := hwhole
  exact hends.append more

theorem Follows.terminalWithinForwarded_iff (h : Follows decode exchange history) :
    TerminalWithinForwarded exchange ↔ TerminalsForwarded decode history := by
  constructor
  · intro hwithin closing hclosing htracked harrived offset hends
    have hseen : exchange.responseProtocolTerminalObservedAtClientClose = some true := by
      obtain ⟨offset, hends⟩ := harrived
      obtain ⟨last, hlast, _⟩ := (scan_terminal decode closing.arrived).2 offset hends
      rw [h.terminalAtClose, hclosing, Option.bind_some, if_pos htracked, hlast]
      rfl
    obtain ⟨recorded, hrecorded, forwarded, hforwarded, hle⟩ := hwithin hseen
    rw [h.recordedOffset ((h.closing closing hclosing).2.2.2 htracked)] at hrecorded
    rw [h.forwardedAtClose, hclosing] at hforwarded
    obtain ⟨last, hlast, hbefore⟩ := (scan_terminal decode history.arrived).2 offset hends
    obtain rfl := Option.some.inj (hlast.symm.trans hrecorded)
    obtain rfl := Option.some.inj hforwarded
    exact hbefore.trans hle
  · intro hforwarded hseen
    obtain ⟨closing, hclosing, htracked, hbytes, hterminal⟩ := h.observedAtClose hseen
    obtain ⟨harrived, _, _, hstill⟩ := h.closing closing hclosing
    obtain ⟨offset, hends⟩ := hterminal.mp rfl
    obtain ⟨last, hlast, _⟩ :=
      (scan_terminal decode history.arrived).2 offset (hends.of_prefix harrived)
    refine ⟨last, ?_, closing.written.length, hbytes, ?_⟩
    · rw [h.recordedOffset (hstill htracked)]
      exact hlast
    · exact hforwarded closing hclosing htracked ⟨offset, hends⟩ last
        ((scan_terminal decode history.arrived).1 last hlast)

theorem get?_clientDeliveryBoundary (exchange : Exchange) :
    (clientDeliveryBoundary exchange.record).get? "protocol_terminal_observed_at_client_close" =
        some (flagOrNull exchange.responseProtocolTerminalObservedAtClientClose) ∧
      (clientDeliveryBoundary exchange.record).get? "response_bytes_forwarded_at_client_close" =
        some (numberOrNull exchange.responseBytesForwardedAtClientClose) := by
  constructor
  · simp [clientDeliveryBoundary, Exchange.record, Json.mkObj, Json.mkFields, Json.get?,
      OrdMap.lookup_insert]
  · simp [clientDeliveryBoundary, Exchange.record, Json.mkObj, Json.mkFields, Json.get?,
      OrdMap.lookup_insert]

/-- A call is excused only when no terminal event had arrived, and for bytes that the client was
not given. -/
theorem Follows.excused (h : Follows decode exchange history) {interaction call : Json}
    {node : String}
    (hboundary : pointer interaction ["extensions", "wire", "client_delivery_boundary"] =
      some (clientDeliveryBoundary exchange.record))
    (hnode : explicitlyAbandonedModelCallNode interaction call = some node) :
    ∃ closing ∈ history.closing, (∀ offset, ¬ TerminalEndsAt decode closing.arrived offset) ∧
      ∃ finish, (call.get? "source_byte_end").bind Json.asU64 = some finish ∧
        closing.written.length ≤ finish := by
  obtain ⟨boundary, closeOffset, finish, hread, hseen, hclose, hfinish, hle⟩ :=
    excused_spec hnode
  obtain rfl := Option.some.inj (hboundary.symm.trans hread)
  rw [(get?_clientDeliveryBoundary exchange).1, Option.bind_some] at hseen
  rw [(get?_clientDeliveryBoundary exchange).2, Option.bind_some] at hclose
  have hflag : exchange.responseProtocolTerminalObservedAtClientClose = some false := by
    cases hrecorded : exchange.responseProtocolTerminalObservedAtClientClose with
    | none =>
        rw [hrecorded] at hseen
        cases hseen
    | some seen =>
        rw [hrecorded] at hseen
        exact hseen
  obtain ⟨closing, hclosing, _, hbytes, hterminal⟩ := h.observedAtClose hflag
  refine ⟨closing, hclosing, fun offset hends => ?_, finish, hfinish, ?_⟩
  · exact absurd (hterminal.mpr ⟨offset, hends⟩) Bool.false_ne_true
  · rw [hbytes] at hclose
    rw [← Json.asU64_natCast hclose]
    exact hle

/-- The bytes of a text of ASCII characters and their characters. -/
def asciiBytes (text : String) : Bytes := text.toList.map fun c => UInt8.ofNat c.toNat

def asciiText (bytes : Bytes) : List Char := bytes.map fun byte => Char.ofNat byte.toNat

/-- A response that is destroyed before its terminal event arrives, and closes after it. -/
def destroyedResponse : List Event :=
  [.respond true, .chunk (asciiBytes "event: response.created\ndata: a\n\n"), .destroy,
    .chunk (asciiBytes "event: response.completed\ndata: b\n\n"), .close, .upstreamEnd false]

end Consistency

end ChipTrace.Gateway

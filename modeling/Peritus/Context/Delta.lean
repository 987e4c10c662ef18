import Peritus.TransitionSystem
import Peritus.Elimination
import Peritus.Context.Invalidation

/-!
The reducer of the working model.  A delta is a list of proposals against one exact
revision: every proposal is checked and retained, the graph of the entries is
eliminated, the entries that proposals supersede are marked, and invalidation runs
over the whole model.
-/

namespace Peritus.Context.Delta

open Peritus.Types Checked TransitionSystem Node Working Invalidation

/-! ### Deltas -/

/-- What `WorkingDelta::new` asks of the proposals, in order. -/
def validateProposals (previous : Option ContextNodeId) :
    List WorkingEntry → Except WorkingError Unit
  | [] => .ok ()
  | entry :: rest => do
      ensure (!(unusable entry.status || entry.hostBinding.isSome)) .derivedStatus
      ensure (previous.all fun id => decide (id < entry.id)) .nonCanonicalOrder
      validateProposals (some entry.id) rest

structure WorkingDelta where
  binding : WorkingBinding
  baseRevision : Nat
  entries : List WorkingEntry
  nonempty : entries ≠ []
  canonical : validateProposals none entries = .ok ()
deriving DecidableEq

def WorkingDelta.new (binding : WorkingBinding) (baseRevision : Nat)
    (entries : List WorkingEntry) (limits : WorkingLimits) :
    Except WorkingError WorkingDelta :=
  if hempty : entries = [] then .error .emptyEntry
  else if limits.operations < entries.length then .error .capacity
  else
    match hcanonical : validateProposals none entries with
    | .error error => .error error
    | .ok () => .ok ⟨binding, baseRevision, entries, hempty, hcanonical⟩

/-! ### Validation -/

def validateReferences (state : WorkingState) (entry : WorkingEntry) :
    Except WorkingError Unit := do
  forEach (fun id => (state.observation state.binding id).map fun _ => ())
    entry.links.supports
  forEach (fun id => (state.observation state.binding id).map fun _ => ())
    entry.links.contradicts

def edges (entry : WorkingEntry) : List ContextNodeId :=
  entry.links.dependsOn ++ entry.supersedes.toList

/-- Elimination over the edges of dependencies and supersessions. -/
def validateGraph (entries : List WorkingEntry) : Except WorkingError Unit :=
  Elimination.validate (findEntry entries) u64Max .missingEntry .capacity
    .dependencyCycle (entries.map edges)

def hasNewSource (old new : WorkingEntry) : Bool :=
  new.links.supports.any (fun id => decide (old.staleThrough < id.get)) ||
    new.links.contradicts.any fun id => decide (old.staleThrough < id.get)

def validateUpsert (state : WorkingState) (entry : WorkingEntry) :
    Except WorkingError Unit :=
  match entryOf state.entries entry.id with
  | none => .ok ()
  | some old => do
      ensure (decide (old.status ≠ .superseded)) .alreadySuperseded
      ensure (old.supersedes.isNone || decide (old.supersedes = entry.supersedes))
        .alreadySuperseded
      ensure (decide (old.status ≠ .stale) || hasNewSource old entry) .staleEntry

/-! ### The reducer -/

/-- Before the first entry with a greater identity. -/
def insertEntry (entries : List WorkingEntry) (entry : WorkingEntry) :
    List WorkingEntry :=
  entries.orderedInsert (fun proposed current => proposed.id < current.id) entry

def upsertEntry (entries : List WorkingEntry) (entry : WorkingEntry)
    (maximum : Nat) : Except WorkingError (List WorkingEntry) :=
  match findEntry entries entry.id with
  | some position => .ok (entries.set position entry)
  | none => do
      ensure (decide (entries.length < maximum)) .capacity
      .ok (insertEntry entries entry)

def supersede (entry : WorkingEntry) : WorkingEntry :=
  entry.withHostStatus .superseded entry.staleThrough

def applySupersession (entries originalEntries : List WorkingEntry)
    (entry : WorkingEntry) : Except WorkingError (List WorkingEntry) :=
  match entry.supersedes with
  | none => .ok entries
  | some previous =>
      match findEntry entries previous, entryOf entries previous with
      | some target, some replaced => do
          if replaced.status = .superseded then
            match entryOf originalEntries entry.id with
            | none => .error .alreadySuperseded
            | some original =>
                ensure (decide (original.supersedes = some previous))
                  .alreadySuperseded
          .ok (entries.modify target supersede)
      | _, _ => .error .missingEntry

/-- The dependencies of the request a host delta comes from. -/
abbrev Host := Option (WorkingValidity × WorkingHostBinding)

/-- A proposal as it is retained: a host adds what it knows of its origin. -/
def retainProposal (state : WorkingState) (host : Host) (entry : WorkingEntry) :
    Except WorkingError WorkingEntry := do
  let previous := entryOf state.entries entry.id
  ensure (!(host.isNone && previous.any fun old => old.hostBinding.isSome))
    .derivedStatus
  validateReferences state entry
  validateUpsert state entry
  let _ ← WorkingEntry.new entry.id entry.kind entry.content entry.links
    entry.validity state.limits
  match host with
  | none => .ok entry
  | some (dependencies, binding) => do
      let constraints :=
        if binding.request.isSome then dependencies else WorkingValidity.uncertain
      let validity ← entry.validity.withHost constraints state.limits
      .ok { entry with
        validity := validity
        hostDeclaredStatus := some entry.status
        hostBinding := some binding }

def upsertEntries (state : WorkingState) (host : Host) :
    List WorkingEntry → List WorkingEntry → Except WorkingError (List WorkingEntry)
  | [], entries => .ok entries
  | entry :: rest, entries => do
      let retained ← retainProposal state host entry
      let upserted ← upsertEntry entries retained state.limits.entries
      upsertEntries state host rest upserted

def supersedeEntries (originalEntries : List WorkingEntry) :
    List WorkingEntry → List WorkingEntry → Except WorkingError (List WorkingEntry)
  | [], entries => .ok entries
  | entry :: rest, entries => do
      let superseded ← applySupersession entries originalEntries entry
      supersedeEntries originalEntries rest superseded

/-- A proposal of a model is current when the reducer is done. -/
def checkProposal (entries : List WorkingEntry) (host : Host)
    (entry : WorkingEntry) : Except WorkingError Unit :=
  match entryOf entries entry.id with
  | none => .error .missingEntry
  | some target =>
      ensure (!(host.isNone && decide (target.status = .stale))) .staleEntry

def reduceDelta (state : WorkingState) (delta : WorkingDelta) (host : Host) :
    Except WorkingError WorkingState := do
  state.checkBinding delta.binding
  ensure (decide (delta.baseRevision = state.revision)) .revisionMismatch
  ensure (decide (delta.entries.length ≤ state.limits.operations)) .capacity
  ensure (host.all fun (_, binding) =>
    decide (binding.throughObservation ≤ state.throughObservation)) .missingSource
  let revision ← nextRevision state.revision
  let upserted ← upsertEntries state host delta.entries state.entries
  validateGraph upserted
  let superseded ← supersedeEntries state.entries delta.entries upserted
  let entries := invalidateEntries state.environment state.throughObservation
    superseded
  forEach (checkProposal entries host) delta.entries
  .ok (state.withEntries entries revision)

def applyWorkingDelta (state : WorkingState) (delta : WorkingDelta) :
    Except WorkingError WorkingState :=
  reduceDelta state delta none

/-! ### The other inputs -/

def ingestWorkingObservation (state : WorkingState) (binding : WorkingBinding)
    (source : ObservationSource) : Except WorkingError WorkingState := do
  state.checkBinding binding
  if source.id.get ≤ state.throughObservation then do
    let previous ← state.observation binding source.id
    if previous = source then .ok state else .error .sourceConflict
  else do
    ensure (decide (state.observations.length < state.limits.observations))
      .capacity
    let expected ← nextRevision state.throughObservation
    ensure (decide (source.id.get = expected)) .sourceSequence
    let revision ← nextRevision state.revision
    .ok { state with
      observations := state.observations ++ [source]
      revision := revision }

def refreshWorkingState (state : WorkingState) (expectedRevision : Nat)
    (environment : WorkingEnvironment) : Except WorkingError WorkingState := do
  ensure (decide (expectedRevision = state.revision)) .revisionMismatch
  ensure (state.binding.sameLineage environment.binding) .bindingMismatch
  ensure (decide (state.binding.conversationRevision ≤
    environment.binding.conversationRevision)) .staleConversation
  ensure (decide (environment.files.length ≤ state.limits.entries)) .capacity
  if environment = state.environment then .ok state
  else do
    let revision ← nextRevision state.revision
    .ok { state with
      environment := environment
      entries := invalidateEntries environment state.throughObservation
        state.entries
      revision := revision }

/-- What a host knows of an entry whose conclusion it does not trust any more. -/
def distrust (state : WorkingState) (entry : WorkingEntry) : WorkingEntry :=
  { entry with
    hostDeclaredStatus := entry.declaredStatus
    validity := .uncertain
    hostBinding := some ⟨state.throughObservation, none⟩ }

def distrustEntries (state : WorkingState) (previous : Option ContextNodeId) :
    List ContextNodeId → List WorkingEntry → Except WorkingError (List WorkingEntry)
  | [], entries => .ok entries
  | id :: rest, entries => do
      ensure (previous.all fun previous => decide (previous < id)) .nonCanonicalOrder
      match findEntry entries id with
      | none => .error .missingEntry
      | some index =>
          distrustEntries state (some id) rest (entries.modify index (distrust state))

def invalidate (state : WorkingState) (binding : WorkingBinding)
    (baseRevision : Nat) (ids : List ContextNodeId) :
    Except WorkingError WorkingState := do
  state.checkBinding binding
  ensure (decide (baseRevision = state.revision)) .revisionMismatch
  ensure (decide (ids ≠ [] ∧ ids.length ≤ state.limits.operations)) .capacity
  let entries ← distrustEntries state none ids state.entries
  let entries := invalidateEntries state.environment state.throughObservation
    entries
  let revision ← nextRevision state.revision
  .ok (state.withEntries entries revision)

structure WorkingProtocolUpdate where
  binding : WorkingBinding
  baseRevision : Nat
  protocol : WorkingProtocol
deriving DecidableEq

def validateProtocol (state : WorkingState) (protocol : WorkingProtocol) :
    Except WorkingError Unit := do
  ensure (decide (protocol.requirements.length ≤ state.limits.entries ∧
    protocol.pending.length ≤ state.limits.entries)) .capacity
  forEach (fun id => do
    let source ← state.observation state.binding id
    ensure (decide (source.kind = .hostPolicy ∨ source.kind = .userInstruction))
      .conflictingEvidence) protocol.requirements
  forEach (fun operation => do
    let source ← state.observation state.binding operation.source
    ensure (decide (source.kind = .agentMessage ∨ source.kind = .toolOutput))
      .conflictingEvidence) protocol.pending

def applyWorkingProtocol (state : WorkingState) (update : WorkingProtocolUpdate) :
    Except WorkingError WorkingState := do
  state.checkBinding update.binding
  ensure (decide (state.revision = update.baseRevision)) .revisionMismatch
  validateProtocol state update.protocol
  let revision ← nextRevision state.revision
  .ok { state with protocol := update.protocol, revision := revision }

inductive WorkingEvent
  | observation (binding : WorkingBinding) (source : ObservationSource)
  | refresh (baseRevision : Nat) (environment : WorkingEnvironment)
  | delta (delta : WorkingDelta)
  | hostDelta (delta : WorkingDelta) (dependencies : WorkingValidity)
      (sourceBinding : WorkingHostBinding)
  | hostInvalidate (binding : WorkingBinding) (baseRevision : Nat)
      (entries : List ContextNodeId)
  | protocol (update : WorkingProtocolUpdate)

def applyWorkingEvent (state : WorkingState) :
    WorkingEvent → Except WorkingError WorkingState
  | .observation binding source => ingestWorkingObservation state binding source
  | .refresh baseRevision environment =>
      refreshWorkingState state baseRevision environment
  | .delta delta => applyWorkingDelta state delta
  | .hostDelta delta dependencies sourceBinding =>
      reduceDelta state delta (some (dependencies, sourceBinding))
  | .hostInvalidate binding baseRevision entries =>
      invalidate state binding baseRevision entries
  | .protocol update => applyWorkingProtocol state update

def replayEvents (state : WorkingState) :
    List WorkingEvent → Except WorkingError WorkingState
  | [] => .ok state
  | event :: rest => do
      let next ← applyWorkingEvent state event
      replayEvents next rest

def replayWorkingEvents (state : WorkingState) (events : List WorkingEvent) :
    Except WorkingError WorkingState := do
  ensure (decide (events.length ≤ state.limits.observations)) .capacity
  replayEvents state events

/-! ### Runs -/

/-- The host applies an event, or it widens the limits. -/
inductive Input
  | event (event : WorkingEvent)
  | limits (limits : WorkingLimits)

def Accepts (state : WorkingState) : Input → WorkingState → Prop
  | .event event, next => applyWorkingEvent state event = .ok next
  | .limits limits, next => state.withLimits limits = .ok next

def Opened (state : WorkingState) : Prop :=
  ∃ environment limits, WorkingState.new environment limits = .ok state

def Reached : WorkingState → Prop := Reachable Opened Accepts

theorem run_of_replayEvents {state next : WorkingState}
    {events : List WorkingEvent} (h : replayEvents state events = .ok next) :
    Run Accepts state (events.map .event) next := by
  induction events generalizing state with
  | nil =>
      cases h
      exact .nil _
  | cons event rest ih =>
      simp only [replayEvents, bind_eq_ok_iff] at h
      obtain ⟨middle, hmiddle, hrest⟩ := h
      exact .cons hmiddle (ih hrest)

theorem reached_of_replay {environment : WorkingEnvironment}
    {limits : WorkingLimits} {state next : WorkingState}
    {events : List WorkingEvent} (hnew : WorkingState.new environment limits =
      .ok state) (h : replayWorkingEvents state events = .ok next) :
    Reached next := by
  simp only [replayWorkingEvents, ensure_bind_eq_ok_iff] at h
  exact ⟨state, _, ⟨environment, limits, hnew⟩, run_of_replayEvents h.2⟩

/-! ### A conclusion that became stale -/

def smallLimits : WorkingLimits := ⟨8, 8, 8, 8, 8, by decide⟩

def smallSource (value : Nat) : ObservationSource :=
  ⟨smallObservation value, smallDigest 0, 1, 0, 1, .toolOutput, by decide⟩

def smallDelta (baseRevision : Nat) (entry : WorkingEntry)
    (hcanonical : validateProposals none [entry] = .ok () := by rfl) :
    WorkingDelta :=
  ⟨smallBinding, baseRevision, [entry], List.cons_ne_nil _ _, hcanonical⟩

/-- A conclusion about one candidate, from the first observation. -/
def smallConclusion : WorkingEntry :=
  smallEntry (smallId 1) (smallLinks 1 none) (some (smallDigest 0))

/-- The candidate changes, and a second observation is made. -/
def smallStale : WorkingState :=
  ⟨smallEnvironment (smallDigest 1), 4, [smallSource 1, smallSource 2],
    [smallConclusion.withHostStatus .stale 1], smallLimits, .empty⟩

theorem reached_smallStale : Reached smallStale := by
  refine @reached_of_replay (smallEnvironment (smallDigest 0)) smallLimits
    ⟨smallEnvironment (smallDigest 0), 0, [], [], smallLimits, .empty⟩ _
    [.observation smallBinding (smallSource 1), .delta (smallDelta 1 smallConclusion),
      .refresh 2 (smallEnvironment (smallDigest 1)),
      .observation smallBinding (smallSource 2)] rfl ?_
  decide

/-- Another conclusion in its place, from the second observation. -/
def smallSuccessor : WorkingEntry :=
  { smallEntry (smallId 2) (smallLinks 2 none) none with
    supersedes := some (smallId 1) }

def smallReplaced : WorkingState :=
  ⟨smallEnvironment (smallDigest 1), 5, [smallSource 1, smallSource 2],
    [smallConclusion.withHostStatus .superseded 1, smallSuccessor], smallLimits,
    .empty⟩

theorem smallReplaced_of_delta :
    applyWorkingDelta smallStale (smallDelta 4 smallSuccessor) =
      .ok smallReplaced := by
  decide

theorem reached_smallReplaced : Reached smallReplaced :=
  @Reachable.snoc _ _ _ _ _ _ (.event (.delta (smallDelta 4 smallSuccessor)))
    reached_smallStale smallReplaced_of_delta

end Peritus.Context.Delta

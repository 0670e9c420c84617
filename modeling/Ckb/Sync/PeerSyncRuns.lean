import Mathlib
import Ckb.Sync.PeerSync
import Ckb.Lib.Forall2

/-!
# The peers' sync states over runs

What one peer's turn of `eviction` can do is said once, by `Evicted`; the
invariants of the synchronizer are then carried through each event and, by
`TimedRun`, through every run from the empty synchronizer.  `Coherent` is what
the counters and the peer states keep between them: `n_sync_started` counts
the peers whose sync started, so that neither the panic of `disconnected` nor
the wrap of `fetch_sub` in `eviction` can happen, and the protected peers stay
within `MAX_OUTBOUND_PEERS_TO_PROTECT_FROM_DISCONNECT`.
-/

namespace Ckb

namespace PeerSync

section Eviction

variable {now : Nat} {ibd : Bool} {tipHeader : Header} {localTotalDifficulty : Nat}
  {state state' : PeerState} {effect : EvictionEffect}

/-- What one peer's turn of `eviction` can do to its state, with the guards of
each branch that later proofs read. -/
inductive Evicted (now : Nat) (ibd : Bool) (tipHeader : Header) (localTotalDifficulty : Nat)
    (state : PeerState) : PeerState → EvictionEffect → Prop where
  | headersTimeout (timeout : Nat) (set : state.headersSyncTimeout = some timeout)
      (expired : timeout < now) (inIbd : ibd = true) :
      Evicted now ibd tipHeader localTotalDifficulty state { state with disconnect := true } .evict
  | unchanged : Evicted now ibd tipHeader localTotalDifficulty state state .none
  | clear : Evicted now ibd tipHeader localTotalDifficulty state
      { state with chainSync := { state.chainSync with
        timeout := 0, workHeader := none, totalDifficulty := none, sentGetheaders := false } } .none
  | arm : Evicted now ibd tipHeader localTotalDifficulty state
      { state with chainSync := { state.chainSync with
        timeout := now + chainSyncTimeout, workHeader := some tipHeader,
        totalDifficulty := some localTotalDifficulty, sentGetheaders := false } } .none
  | stopSync (sent : state.chainSync.sentGetheaders = true)
      (guarded : state.chainSync.protect = true) (started : state.syncStarted = true)
      (expired : state.chainSync.timeout < now) :
      Evicted now ibd tipHeader localTotalDifficulty state
        (state.stopSync (now + protectStopSyncTime)) .stopSync
  | evict (sent : state.chainSync.sentGetheaders = true)
      (unprotected : state.chainSync.protect = false) (expired : state.chainSync.timeout < now) :
      Evicted now ibd tipHeader localTotalDifficulty state { state with disconnect := true } .evict
  | getHeaders (header : Header) (work : state.chainSync.workHeader = some header) :
      Evicted now ibd tipHeader localTotalDifficulty state
        { state with chainSync := { state.chainSync with
          sentGetheaders := true, timeout := now + evictionHeadersResponseTime } }
        (.getHeaders header)

theorem evictOutbound_evicted
    (checked : evictOutbound now tipHeader localTotalDifficulty state = .ok (state', effect)) :
    Evicted now ibd tipHeader localTotalDifficulty state state' effect := by
  unfold evictOutbound at checked
  dsimp only at checked
  split at checked
  · cases checked
    exact .unchanged
  split at checked
  · -- the peer's best known header reaches our tip
    split at checked
    · cases checked
      exact .clear
    · cases checked
      exact .unchanged
  split at checked
  · cases checked
    exact .arm
  split at checked
  · rename_i expired
    simp only [Bool.and_eq_true, decide_eq_true_eq] at expired
    split at checked
    · rename_i sent
      split at checked
      · rename_i guarded
        split at checked
        · cases checked
          exact .stopSync sent guarded ‹_› expired.2
        · cases checked
          exact .unchanged
      · rename_i unguarded
        cases checked
        exact .evict sent (Bool.eq_false_iff.mpr unguarded) expired.2
    · split at checked
      · cases checked
      · cases checked
        exact .getHeaders _ ‹_›
  · cases checked
    exact .unchanged

theorem evictPeer_evicted
    (evicted : evictPeer now ibd tipHeader localTotalDifficulty state = .ok (state', effect)) :
    Evicted now ibd tipHeader localTotalDifficulty state state' effect := by
  unfold evictPeer at evicted
  split at evicted
  · split at evicted
    · rename_i timeout set guard
      cases evicted
      simp only [Bool.and_eq_true, decide_eq_true_eq] at guard
      exact .headersTimeout timeout set guard.1.1 guard.1.2
    · exact evictOutbound_evicted evicted
  · exact evictOutbound_evicted evicted

theorem evictOutbound_eq_error {message : String}
    (failed : evictOutbound now tipHeader localTotalDifficulty state = .error message) :
    0 < state.chainSync.timeout ∧ state.chainSync.workHeader = none := by
  unfold evictOutbound at failed
  dsimp only at failed
  split at failed
  · cases failed
  split at failed
  · split at failed <;> cases failed
  split at failed
  · cases failed
  split at failed
  · rename_i expired
    simp only [Bool.and_eq_true, decide_eq_true_eq] at expired
    split at failed
    · split at failed
      · split at failed <;> cases failed
      · cases failed
    · split at failed
      · exact ⟨expired.1, ‹_›⟩
      · cases failed
  · cases failed

theorem evictPeer_eq_error {message : String}
    (failed : evictPeer now ibd tipHeader localTotalDifficulty state = .error message) :
    0 < state.chainSync.timeout ∧ state.chainSync.workHeader = none := by
  unfold evictPeer at failed
  split at failed
  · split at failed
    · cases failed
    · exact evictOutbound_eq_error failed
  · exact evictOutbound_eq_error failed

/-- A chain-sync timeout is only set together with the tip it was set
against. -/
def Armed (state : PeerState) : Prop :=
  0 < state.chainSync.timeout → state.chainSync.workHeader.isSome

theorem Evicted.armed (evicted : Evicted now ibd tipHeader localTotalDifficulty state state' effect)
    (armed : Armed state) : Armed state' := by
  unfold Armed at armed ⊢
  cases evicted with
  | clear => simp
  | arm => simp
  | stopSync => simpa using armed
  | getHeaders header work => simp [work]
  | _ => exact armed

theorem Evicted.protect (evicted : Evicted now ibd tipHeader localTotalDifficulty state state' effect) :
    state'.chainSync.protect = state.chainSync.protect := by
  cases evicted <;> rfl

theorem Evicted.syncStarted (evicted : Evicted now ibd tipHeader localTotalDifficulty state state' effect)
    (kept : effect ≠ .stopSync) : state'.syncStarted = state.syncStarted := by
  cases evicted with
  | stopSync => exact absurd rfl kept
  | _ => rfl

theorem Evicted.started_of_started
    (evicted : Evicted now ibd tipHeader localTotalDifficulty state state' effect)
    (started : state'.syncStarted = true) : state.syncStarted = true := by
  cases evicted with
  | stopSync => cases started
  | _ => exact started

theorem Evicted.stopped (evicted : Evicted now ibd tipHeader localTotalDifficulty state state' .stopSync) :
    state.syncStarted = true ∧ state'.syncStarted = false := by
  cases evicted with
  | stopSync _ _ started => exact ⟨started, rfl⟩

end Eviction

section Loops

variable {now : Nat} {ibd : Bool} {tipHeader : Header} {localTotalDifficulty : Nat}

@[simp] theorem applyEffect_peers (sync : PeerSync) (peer : PeerIndex) (effect : EvictionEffect) :
    (applyEffect sync now peer effect).1.peers = sync.peers := by
  cases effect <;> rfl

@[simp] theorem applyEffect_nProtectedOutboundPeers (sync : PeerSync) (peer : PeerIndex)
    (effect : EvictionEffect) :
    (applyEffect sync now peer effect).1.nProtectedOutboundPeers = sync.nProtectedOutboundPeers := by
  cases effect <;> rfl

theorem applyEffect_nSyncStarted (sync : PeerSync) (peer : PeerIndex) (effect : EvictionEffect) :
    (applyEffect sync now peer effect).1.nSyncStarted =
      if effect = .stopSync then wrappingPred sync.nSyncStarted else sync.nSyncStarted := by
  cases effect <;> rfl

theorem wrappingPred_of_pos {n : Nat} (positive : 0 < n) : wrappingPred n = n - 1 := by
  rw [wrappingPred, if_neg (Nat.pos_iff_ne_zero.mp positive)]

/-- One turn of the loop of `eviction`, read back from a loop that went
through. -/
theorem evictionLoop_cons_eq_ok {peer : PeerIndex} {state : PeerState}
    {rest entries' : List (PeerIndex × PeerState)} {sync sync' : PeerSync}
    {sent : List SyncAction} {evicted : List PeerIndex}
    (looped : evictionLoop now ibd tipHeader localTotalDifficulty ((peer, state) :: rest) sync =
      .ok (entries', sync', sent, evicted)) :
    ∃ state' effect entries restSent restEvicted,
      evictPeer now ibd tipHeader localTotalDifficulty state = .ok (state', effect) ∧
      evictionLoop now ibd tipHeader localTotalDifficulty rest (applyEffect sync now peer effect).1 =
        .ok (entries, sync', restSent, restEvicted) ∧
      entries' = (peer, state') :: entries ∧ sent = (applyEffect sync now peer effect).2.1 ++ restSent ∧
      evicted = (applyEffect sync now peer effect).2.2 ++ restEvicted := by
  simp only [evictionLoop] at looped
  obtain ⟨⟨state', effect⟩, evicts, looped⟩ := Except.bind_eq_ok.mp looped
  obtain ⟨⟨entries, sync'', restSent, restEvicted⟩, loopedRest, same⟩ := Except.bind_eq_ok.mp looped
  simp only [Except.pure_eq_ok, Prod.mk.injEq] at same
  obtain ⟨rfl, rfl, rfl, rfl⟩ := same
  exact ⟨state', effect, entries, restSent, restEvicted, evicts, loopedRest, rfl, rfl, rfl⟩

/-- The loop of `eviction` changes each peer's state as `Evicted` says, and
leaves the peers it reads and the protected count alone. -/
theorem evictionLoop_related :
    ∀ {entries entries' : List (PeerIndex × PeerState)} {sync sync' : PeerSync}
      {sent : List SyncAction} {evicted : List PeerIndex},
      evictionLoop now ibd tipHeader localTotalDifficulty entries sync =
        .ok (entries', sync', sent, evicted) →
      List.Forall₂ (fun entry entry' => entry'.1 = entry.1 ∧
          ∃ effect, Evicted now ibd tipHeader localTotalDifficulty entry.2 entry'.2 effect)
        entries entries' ∧
      sync'.peers = sync.peers ∧ sync'.nProtectedOutboundPeers = sync.nProtectedOutboundPeers := by
  intro entries
  induction entries with
  | nil =>
      intro entries' sync sync' sent evicted looped
      cases looped
      exact ⟨.nil, rfl, rfl⟩
  | cons entry rest induction =>
      obtain ⟨peer, state⟩ := entry
      intro entries' sync sync' sent evicted looped
      obtain ⟨state', effect, entries, restSent, restEvicted, evicts, loopedRest, rfl, -, -⟩ :=
        evictionLoop_cons_eq_ok looped
      obtain ⟨related, samePeers, sameProtected⟩ := induction loopedRest
      refine ⟨.cons ⟨rfl, effect, evictPeer_evicted evicts⟩ related, ?_, ?_⟩
      · rw [samePeers, applyEffect_peers]
      · rw [sameProtected, applyEffect_nProtectedOutboundPeers]

/-- The counter of syncing peers goes down with each stopped sync of the loop
of `eviction`, never past zero. -/
theorem evictionLoop_counted (base : Nat) :
    ∀ {entries entries' : List (PeerIndex × PeerState)} {sync sync' : PeerSync}
      {sent : List SyncAction} {evicted : List PeerIndex},
      evictionLoop now ibd tipHeader localTotalDifficulty entries sync =
        .ok (entries', sync', sent, evicted) →
      sync.nSyncStarted = base + entries.countP (fun entry => entry.2.syncStarted) →
      sync'.nSyncStarted = base + entries'.countP (fun entry => entry.2.syncStarted) := by
  intro entries
  induction entries generalizing base with
  | nil =>
      intro entries' sync sync' sent evicted looped counted
      cases looped
      exact counted
  | cons entry rest induction =>
      obtain ⟨peer, state⟩ := entry
      intro entries' sync sync' sent evicted looped counted
      obtain ⟨state', effect, entries, restSent, restEvicted, evicts, loopedRest, rfl, -, -⟩ :=
        evictionLoop_cons_eq_ok looped
      have evicted : Evicted now ibd tipHeader localTotalDifficulty state state' effect :=
        evictPeer_evicted evicts
      rw [List.countP_cons] at counted ⊢
      dsimp only at counted
      by_cases stopping : effect = .stopSync
      · -- the stopped peer was syncing, so the counter was positive
        subst stopping
        obtain ⟨started, stopped⟩ := evicted.stopped
        simp only [started, stopped, if_true] at counted ⊢
        have pred : (applyEffect sync now peer .stopSync).1.nSyncStarted =
            base + rest.countP fun entry => entry.2.syncStarted := by
          rw [applyEffect_nSyncStarted, if_pos rfl, wrappingPred_of_pos (by omega)]
          omega
        simpa using induction base loopedRest pred
      · have kept : (applyEffect sync now peer effect).1.nSyncStarted =
            (base + if state.syncStarted then 1 else 0) +
              rest.countP fun entry => entry.2.syncStarted := by
          rw [applyEffect_nSyncStarted, if_neg stopping]
          omega
        have later := induction _ loopedRest kept
        simp only at later ⊢
        rw [evicted.syncStarted stopping, later]
        omega

theorem evictionLoop_eq_error {message : String} :
    ∀ {entries : List (PeerIndex × PeerState)} {sync : PeerSync},
      evictionLoop now ibd tipHeader localTotalDifficulty entries sync = .error message →
      ∃ entry ∈ entries, evictPeer now ibd tipHeader localTotalDifficulty entry.2 = .error message := by
  intro entries
  induction entries with
  | nil =>
      intro sync looped
      cases looped
  | cons entry rest induction =>
      obtain ⟨peer, state⟩ := entry
      intro sync looped
      simp only [evictionLoop] at looped
      cases evicts : evictPeer now ibd tipHeader localTotalDifficulty state with
      | error error =>
          rw [evicts, Except.error_bind] at looped
          cases looped
          exact ⟨(peer, state), List.mem_cons_self, evicts⟩
      | ok result =>
          obtain ⟨state', effect⟩ := result
          rw [evicts, Except.ok_bind] at looped
          rcases applied : applyEffect sync now peer effect with ⟨sync₁, sentHere, evictedHere⟩
          rw [applied] at looped
          cases loopedRest : evictionLoop now ibd tipHeader localTotalDifficulty rest sync₁ with
          | error error =>
              rw [loopedRest, Except.error_bind] at looped
              cases looped
              obtain ⟨entry, member, failed⟩ := induction loopedRest
              exact ⟨entry, List.mem_cons_of_mem _ member, failed⟩
          | ok restResult =>
              rw [loopedRest, Except.ok_bind] at looped
              cases looped

theorem applyEffect_evicted (sync : PeerSync) (peer : PeerIndex) (effect : EvictionEffect) :
    (applyEffect sync now peer effect).2.2 = if effect = .evict then [peer] else [] := by
  cases effect <;> rfl

theorem applyEffect_ne_evict (sync : PeerSync) (peer : PeerIndex) (effect : EvictionEffect)
    (other : PeerIndex) : SyncAction.evict other ∉ (applyEffect sync now peer effect).2.1 := by
  cases effect with
  | getHeaders header =>
      rcases sending : sendGetheadersToPeer sync.pendingGetHeaders now peer header with
        ⟨pending, sent⟩
      simp only [applyEffect, sending]
      cases sent <;> simp
  | _ => exact fun member => nomatch member

theorem applyEffect_of_ne_stopSync (sync : PeerSync) (peer : PeerIndex) {effect : EvictionEffect}
    (keeps : effect ≠ .stopSync) :
    (applyEffect sync now peer effect).1 =
      { sync with pendingGetHeaders := (applyEffect sync now peer effect).1.pendingGetHeaders } := by
  cases effect with
  | stopSync => exact absurd rfl keeps
  | _ => rfl

/-- A headers message is the turn of `eviction` that sends the getheaders of a
full message, followed by a disconnect at most. -/
theorem headersReceived_eq (sync : PeerSync) (peer : PeerIndex) (count : Nat) (last : Header)
    (ibd : Bool) :
    ∃ disconnects, (∀ other, SyncAction.evict other ∉ disconnects) ∧
      sync.headersReceived now peer count last ibd =
        ((applyEffect sync now peer (if count = maxHeadersLen then .getHeaders last else .none)).1,
          (applyEffect sync now peer (if count = maxHeadersLen then .getHeaders last else .none)).2.1 ++
            disconnects) := by
  unfold PeerSync.headersReceived
  generalize applyEffect sync now peer (if count = maxHeadersLen then .getHeaders last else .none) =
    applied
  rcases applied with ⟨sync', sent, evicted⟩
  dsimp only
  refine ⟨_, fun other => ?_, rfl⟩
  split <;> simp

theorem headersReceived_step {sync sync' : PeerSync} {peer : PeerIndex} {count : Nat}
    {last : Header} {ibd : Bool} {actions : List SyncAction}
    (stepped : sync.step now (.headersReceived peer count last ibd) = .ok (sync', actions)) :
    ∃ disconnects, (∀ other, SyncAction.evict other ∉ disconnects) ∧
      sync' = (applyEffect sync now peer
        (if count = maxHeadersLen then .getHeaders last else .none)).1 ∧
      actions = (applyEffect sync now peer
        (if count = maxHeadersLen then .getHeaders last else .none)).2.1 ++ disconnects := by
  obtain ⟨disconnects, quiet, received⟩ := headersReceived_eq sync peer count last ibd
  have stepped' : sync.headersReceived now peer count last ibd = (sync', actions) :=
    Except.pure_eq_ok.mp stepped
  rw [received, Prod.mk.injEq] at stepped'
  exact ⟨disconnects, quiet, stepped'.1.symm, stepped'.2.symm⟩

/-- The loop of `eviction` disconnects only peers it went through with a
disconnecting turn, and sends nothing but getheaders. -/
theorem evictionLoop_evicted :
    ∀ {entries entries' : List (PeerIndex × PeerState)} {sync sync' : PeerSync}
      {sent : List SyncAction} {evicted : List PeerIndex},
      evictionLoop now ibd tipHeader localTotalDifficulty entries sync =
        .ok (entries', sync', sent, evicted) →
      (∀ peer ∈ evicted, ∃ state state', (peer, state) ∈ entries ∧
        Evicted now ibd tipHeader localTotalDifficulty state state' .evict) ∧
      ∀ peer, SyncAction.evict peer ∉ sent := by
  intro entries
  induction entries with
  | nil =>
      intro entries' sync sync' sent evicted looped
      cases looped
      exact ⟨fun _ member => (nomatch member), fun _ member => nomatch member⟩
  | cons entry rest induction =>
      obtain ⟨peer, state⟩ := entry
      intro entries' sync sync' sent evicted looped
      obtain ⟨state', effect, entries, restSent, restEvicted, evicts, loopedRest, rfl, rfl, rfl⟩ :=
        evictionLoop_cons_eq_ok looped
      obtain ⟨evictedRest, quietRest⟩ := induction loopedRest
      refine ⟨fun other member => ?_, fun other member => ?_⟩
      · rcases List.mem_append.mp member with here | later
        · -- the peer of this turn, when its effect disconnects it
          rw [applyEffect_evicted] at here
          split at here
          · rename_i disconnecting
            subst disconnecting
            rw [List.mem_singleton.mp here]
            exact ⟨state, state', List.mem_cons_self, evictPeer_evicted evicts⟩
          · cases here
        · obtain ⟨old, new, oldMember, evicted⟩ := evictedRest other later
          exact ⟨old, new, List.mem_cons_of_mem _ oldMember, evicted⟩
      · rcases List.mem_append.mp member with here | later
        · exact applyEffect_ne_evict sync peer effect other here
        · exact quietRest other later

/-- One turn of the loop of `start_sync_headers` that goes on. -/
theorem startSyncLoop_cons_of_continue (peer : PeerIndex) (rest : List PeerIndex) {sync : PeerSync}
    (continues : (ibd && sync.nSyncStarted != 0) = false) :
    ∃ pending sent,
      sendGetheadersToPeer (sync.startPeer now tipHeader peer).pendingGetHeaders now peer tipHeader =
        (pending, sent) ∧
      startSyncLoop now ibd tipHeader (peer :: rest) sync =
        ((startSyncLoop now ibd tipHeader rest
            { sync.startPeer now tipHeader peer with pendingGetHeaders := pending }).1,
          (if sent then [SyncAction.getHeaders peer tipHeader] else []) ++
            (startSyncLoop now ibd tipHeader rest
              { sync.startPeer now tipHeader peer with pendingGetHeaders := pending }).2) := by
  rcases sending :
    sendGetheadersToPeer (sync.startPeer now tipHeader peer).pendingGetHeaders now peer tipHeader
    with ⟨pending, sent⟩
  refine ⟨pending, sent, rfl, ?_⟩
  rw [startSyncLoop, if_neg (by simp [continues])]
  dsimp only
  rw [sending]
  cases sent <;> rfl

/-- What `disconnected` does when it goes through: the peer's state goes, and
the counter loses one for it if its sync had started. -/
theorem disconnected_eq_ok {sync sync' : PeerSync} {peer : PeerIndex}
    (done : sync.disconnected peer = .ok sync') :
    sync'.peers.state = (LinkedMap.remove sync.peers.state peer).1 ∧
      sync'.nProtectedOutboundPeers = sync.nProtectedOutboundPeers ∧
      sync'.pendingGetHeaders = sync.pendingGetHeaders ∧
      sync'.nSyncStarted +
          (if ((LinkedMap.get? sync.peers.state peer).map PeerState.syncStarted).getD false
            then 1 else 0) = sync.nSyncStarted := by
  unfold PeerSync.disconnected at done
  split at done
  rename_i entries removedState removing
  obtain ⟨rfl, rfl⟩ : (LinkedMap.remove sync.peers.state peer).1 = entries ∧
      LinkedMap.get? sync.peers.state peer = removedState :=
    ⟨congrArg Prod.fst removing, congrArg Prod.snd removing⟩
  split at done
  · rename_i state found
    rw [found, Option.map_some, Option.getD_some]
    dsimp only at done
    split at done
    · rename_i started
      split at done
      · cases done
      · rename_i positive
        cases done
        rw [if_pos started]
        exact ⟨rfl, rfl, rfl, Nat.sub_add_cancel (Nat.pos_of_ne_zero positive)⟩
    · rename_i idle
      cases done
      rw [if_neg idle]
      exact ⟨rfl, rfl, rfl, rfl⟩
  · rename_i absent
    cases done
    rw [absent]
    exact ⟨rfl, rfl, rfl, rfl⟩

theorem disconnected_eq_error {sync : PeerSync} {peer : PeerIndex} {message : String}
    (failed : sync.disconnected peer = .error message) :
    ∃ state, LinkedMap.get? sync.peers.state peer = some state ∧ state.syncStarted = true ∧
      sync.nSyncStarted = 0 := by
  unfold PeerSync.disconnected at failed
  split at failed
  rename_i entries removedState removing
  obtain ⟨rfl, rfl⟩ : (LinkedMap.remove sync.peers.state peer).1 = entries ∧
      LinkedMap.get? sync.peers.state peer = removedState :=
    ⟨congrArg Prod.fst removing, congrArg Prod.snd removing⟩
  split at failed
  · rename_i state found
    dsimp only at failed
    split at failed
    · rename_i started
      split at failed
      · exact ⟨state, found, started, ‹_›⟩
      · cases failed
    · cases failed
  · cases failed

theorem eviction_eq_ok {sync sync' : PeerSync} {actions : List SyncAction}
    (evicted : sync.eviction now ibd tipHeader localTotalDifficulty = .ok (sync', actions)) :
    ∃ entries looped sent evictedPeers,
      evictionLoop now ibd tipHeader localTotalDifficulty sync.peers.state sync =
        .ok (entries, looped, sent, evictedPeers) ∧
      sync' = { looped with peers := ⟨entries⟩ } ∧ actions = sent ++ evictedPeers.map SyncAction.evict := by
  unfold PeerSync.eviction at evicted
  obtain ⟨⟨entries, looped, sent, evictedPeers⟩, loop, same⟩ := Except.bind_eq_ok.mp evicted
  simp only [Except.pure_eq_ok, Prod.mk.injEq] at same
  obtain ⟨rfl, rfl⟩ := same
  exact ⟨entries, looped, sent, evictedPeers, loop, rfl, rfl⟩

theorem headersSynchronized_eq_ok {sync sync' : PeerSync} {peer : PeerIndex} {sharedBest : ScoredView}
    (done : sync.headersSynchronized peer sharedBest = .ok sync') :
    sync' = { sync with peers := ⟨LinkedMap.modify (sync.peers.setBestKnownHeader peer sharedBest).state
      peer fun state => { state with headersSyncTimeout := none }⟩ } := by
  unfold PeerSync.headersSynchronized at done
  dsimp only at done
  split at done
  · cases done
  · cases done
    rfl

theorem headersSynchronized_eq_error {sync : PeerSync} {peer : PeerIndex} {sharedBest : ScoredView}
    {message : String} (failed : sync.headersSynchronized peer sharedBest = .error message) :
    message = "Peer must exists" := by
  unfold PeerSync.headersSynchronized at failed
  dsimp only at failed
  split at failed
  · cases failed
    rfl
  · cases failed

end Loops

section Coherent

variable {sync sync' : PeerSync} {now : Nat}

/-- What the counters and the peers' states keep between them: one state per
peer, `n_sync_started` the number of peers whose sync started, every armed
chain-sync timeout with its tip, and the protected peers counted by
`n_protected_outbound_peers`, which stays within its bound. -/
structure Coherent (sync : PeerSync) : Prop where
  keys : (sync.peers.state.map Prod.fst).Nodup
  counted : sync.nSyncStarted = sync.peers.state.countP fun entry => entry.2.syncStarted
  armed : ∀ entry ∈ sync.peers.state, Armed entry.2
  protectedCounted :
    (sync.peers.state.countP fun entry => entry.2.chainSync.protect) ≤ sync.nProtectedOutboundPeers
  protectBound : sync.nProtectedOutboundPeers ≤ maxOutboundPeersToProtectFromDisconnect

theorem new_coherent : new.Coherent where
  keys := List.nodup_nil
  counted := rfl
  armed := fun _ member => nomatch member
  protectedCounted := Nat.le_refl 0
  protectBound := Nat.zero_le _

theorem Coherent.modify (coherent : sync.Coherent) {peer : PeerIndex}
    {change : PeerState → PeerState}
    (keepsStarted : ∀ state, (change state).syncStarted = state.syncStarted)
    (keepsChainSync : ∀ state, (change state).chainSync = state.chainSync) :
    Coherent { sync with peers := ⟨LinkedMap.modify sync.peers.state peer change⟩ } where
  keys := by
    rw [LinkedMap.keys_modify]
    exact coherent.keys
  counted := by
    rw [LinkedMap.countP_modify_of_keeps (fun entry : PeerIndex × PeerState => entry.2.syncStarted)
      fun entry => keepsStarted entry.2]
    exact coherent.counted
  armed := by
    apply LinkedMap.forall_modify coherent.armed
    intro state member
    unfold Armed
    rw [keepsChainSync]
    exact coherent.armed _ member
  protectedCounted := by
    rw [LinkedMap.countP_modify_of_keeps
      (fun entry : PeerIndex × PeerState => entry.2.chainSync.protect)
      fun entry => congrArg ChainSyncState.protect (keepsChainSync entry.2)]
    exact coherent.protectedCounted
  protectBound := coherent.protectBound

theorem Coherent.onConnected (coherent : sync.Coherent) (peer : PeerIndex) (isOutbound : Bool) :
    (sync.onConnected peer isOutbound).Coherent := by
  unfold PeerSync.onConnected Peers.onConnected
  dsimp only
  generalize protecting :
    (isOutbound && decide (sync.nProtectedOutboundPeers < maxOutboundPeersToProtectFromDisconnect)) =
      protect
  have room : protect = true →
      sync.nProtectedOutboundPeers < maxOutboundPeersToProtectFromDisconnect := by
    rintro rfl
    simp only [Bool.and_eq_true, decide_eq_true_eq] at protecting
    exact protecting.2
  have bound := coherent.protectBound
  split
  · -- a known peer takes the new protection
    rename_i known
    obtain ⟨state, found⟩ := Option.isSome_iff_exists.mp (LinkedMap.isSome_get?.trans known)
    refine ⟨?_, ?_, ?_, ?_, ?_⟩
    · rw [LinkedMap.keys_modify]
      exact coherent.keys
    · rw [LinkedMap.countP_modify_of_keeps (fun entry : PeerIndex × PeerState => entry.2.syncStarted)
        fun _ => rfl]
      exact coherent.counted
    · dsimp only
      apply LinkedMap.forall_modify coherent.armed
      intro state member
      exact coherent.armed (peer, state) member
    · have recount := LinkedMap.countP_modify
        (fun entry : PeerIndex × PeerState => entry.2.chainSync.protect)
        (fun state : PeerState => { state with
          headersSyncTimeout := none, chainSync := { state.chainSync with protect := protect } })
        coherent.keys found
      have counted := coherent.protectedCounted
      simp only at recount ⊢
      by_cases guarded : protect = true
      · rw [if_pos guarded] at recount ⊢
        omega
      · rw [if_neg guarded] at recount ⊢
        omega
    · dsimp only
      split
      · have := room ‹_›
        omega
      · exact bound
  · -- a new peer starts idle, with no timeout armed
    rename_i fresh
    have fresh : LinkedMap.contains sync.peers.state peer = false := by simpa using fresh
    refine ⟨?_, ?_, ?_, ?_, ?_⟩
    · exact LinkedMap.keys_insert_nodup coherent.keys
    · rw [LinkedMap.countP_insert_of_contains_eq_false fresh]
      simpa [PeerState.new] using coherent.counted
    · apply LinkedMap.forall_insert coherent.armed
      simp [Armed, PeerState.new, ChainSyncState.default]
    · rw [LinkedMap.countP_insert_of_contains_eq_false fresh]
      -- the new peer is protected exactly when the counter goes up
      cases protect with
      | false => simpa [PeerState.new] using coherent.protectedCounted
      | true => simpa [PeerState.new] using coherent.protectedCounted
    · dsimp only
      split
      · have := room ‹_›
        omega
      · exact bound

theorem Coherent.withPending (coherent : sync.Coherent) (pending : List ((PeerIndex × H256) × Nat)) :
    Coherent { sync with pendingGetHeaders := pending } :=
  ⟨coherent.keys, coherent.counted, coherent.armed, coherent.protectedCounted, coherent.protectBound⟩

theorem Coherent.newHeaderReceived (coherent : sync.Coherent) (peer : PeerIndex) (view : ScoredView) :
    Coherent { sync with peers := sync.peers.newHeaderReceived peer view } := by
  apply coherent.modify
  · intro state
    split
    · split <;> rfl
    · rfl
  · intro state
    split
    · split <;> rfl
    · rfl

theorem Coherent.startPeer (coherent : sync.Coherent) (tip : Header) (peer : PeerIndex) :
    (sync.startPeer now tip peer).Coherent := by
  unfold PeerSync.startPeer
  split
  · rename_i state found
    split
    · rename_i idle
      have idle : state.syncStarted = false := by simpa using idle
      have recount := LinkedMap.countP_modify (fun entry : PeerIndex × PeerState => entry.2.syncStarted)
        (fun state => state.startSync (predictHeadersSyncTime now tip)) coherent.keys found
      simp only [idle, PeerState.startSync_syncStarted, Bool.false_eq_true, ↓reduceIte] at recount
      refine ⟨?_, ?_, ?_, ?_, coherent.protectBound⟩
      · dsimp only
        rw [LinkedMap.keys_modify]
        exact coherent.keys
      · have counted := coherent.counted
        dsimp only
        omega
      · dsimp only
        apply LinkedMap.forall_modify coherent.armed
        intro state member
        exact coherent.armed (peer, state) member
      · dsimp only
        rw [LinkedMap.countP_modify_of_keeps
          (fun entry : PeerIndex × PeerState => entry.2.chainSync.protect) fun _ => rfl]
        exact coherent.protectedCounted
    · exact coherent
  · exact coherent

theorem Coherent.startSyncLoop (coherent : sync.Coherent) (ibd : Bool) (tip : Header)
    (peers : List PeerIndex) : (PeerSync.startSyncLoop now ibd tip peers sync).1.Coherent := by
  induction peers generalizing sync with
  | nil => exact coherent
  | cons peer rest induction =>
      by_cases stops : (ibd && sync.nSyncStarted != 0) = true
      · rw [PeerSync.startSyncLoop, if_pos stops]
        exact coherent
      · obtain ⟨pending, sent, -, looped⟩ :=
          startSyncLoop_cons_of_continue peer rest (Bool.eq_false_iff.mpr stops)
        rw [looped]
        exact induction ((coherent.startPeer tip peer).withPending pending)

theorem Coherent.disconnected (coherent : sync.Coherent) {peer : PeerIndex}
    (done : sync.disconnected peer = .ok sync') : sync'.Coherent := by
  obtain ⟨left, sameProtected, -, counter⟩ := disconnected_eq_ok done
  refine ⟨?_, ?_, ?_, ?_, ?_⟩
  · rw [left]
    exact LinkedMap.keys_remove_nodup coherent.keys
  · -- the counter loses what the count loses
    have counted := coherent.counted
    rw [left]
    cases found : LinkedMap.get? sync.peers.state peer with
    | none =>
        rw [found, Option.map_none, Option.getD_none, if_neg Bool.false_ne_true] at counter
        rw [LinkedMap.remove_of_get?_eq_none found]
        omega
    | some state =>
        rw [found, Option.map_some, Option.getD_some] at counter
        have recount := LinkedMap.countP_remove
          (fun entry : PeerIndex × PeerState => entry.2.syncStarted) coherent.keys found
        dsimp only at recount
        omega
  · rw [left]
    exact LinkedMap.forall_remove coherent.armed
  · rw [left, sameProtected]
    exact List.filter_sublist.countP_le.trans coherent.protectedCounted
  · rw [sameProtected]
    exact coherent.protectBound

theorem Coherent.disconnected_ne_error (coherent : sync.Coherent) (peer : PeerIndex)
    (message : String) : sync.disconnected peer ≠ .error message := by
  intro failed
  obtain ⟨state, found, started, empty⟩ := disconnected_eq_error failed
  have recount := LinkedMap.countP_remove (fun entry : PeerIndex × PeerState => entry.2.syncStarted)
    coherent.keys found
  have counted := coherent.counted
  dsimp only at recount
  rw [if_pos started] at recount
  omega

theorem Coherent.headersSynchronized (coherent : sync.Coherent) {peer : PeerIndex}
    {sharedBest : ScoredView} (done : sync.headersSynchronized peer sharedBest = .ok sync') :
    sync'.Coherent := by
  rw [headersSynchronized_eq_ok done]
  have marked : Coherent { sync with peers := sync.peers.setBestKnownHeader peer sharedBest } :=
    coherent.modify (fun _ => rfl) fun _ => rfl
  exact marked.modify (fun _ => rfl) fun _ => rfl

theorem Coherent.eviction (coherent : sync.Coherent) {ibd : Bool} {tipHeader : Header}
    {localTotalDifficulty : Nat} {actions : List SyncAction}
    (evicted : sync.eviction now ibd tipHeader localTotalDifficulty = .ok (sync', actions)) :
    sync'.Coherent := by
  obtain ⟨entries, looped, sent, evictedPeers, loop, rfl, -⟩ := eviction_eq_ok evicted
  obtain ⟨related, -, sameProtected⟩ := evictionLoop_related loop
  have counted := evictionLoop_counted 0 loop (by rw [Nat.zero_add]; exact coherent.counted)
  rw [Nat.zero_add] at counted
  have sameKeys : sync.peers.state.map Prod.fst = entries.map Prod.fst :=
    related.map_eq fun _ _ step => step.1.symm
  have sameProtect : (sync.peers.state.countP fun entry => entry.2.chainSync.protect) =
      entries.countP fun entry => entry.2.chainSync.protect :=
    related.countP_eq fun _ _ ⟨_, _, evicts⟩ => evicts.protect.symm
  refine ⟨?_, counted, ?_, ?_, ?_⟩
  · dsimp only
    rw [← sameKeys]
    exact coherent.keys
  · intro entry member
    obtain ⟨old, oldMember, -, _, evicts⟩ := related.exists_of_mem_right member
    exact evicts.armed (coherent.armed old oldMember)
  · dsimp only
    rw [← sameProtect, sameProtected]
    exact coherent.protectedCounted
  · dsimp only
    rw [sameProtected]
    exact coherent.protectBound

theorem Coherent.step (coherent : sync.Coherent) {event : SyncEvent} {actions : List SyncAction}
    (stepped : sync.step now event = .ok (sync', actions)) : sync'.Coherent := by
  cases event with
  | connected peer isOutbound =>
      cases stepped
      exact coherent.onConnected peer isOutbound
  | disconnected peer =>
      obtain ⟨next, done, same⟩ := Except.bind_eq_ok.mp stepped
      cases same
      exact coherent.disconnected done
  | startSyncHeaders ibd tip =>
      have started : sync.startSyncHeaders now ibd tip = (sync', actions) :=
        Except.pure_eq_ok.mp stepped
      have reached : (sync.startSyncHeaders now ibd tip).1 = sync' := by rw [started]
      rw [← reached]
      exact coherent.startSyncLoop ibd tip _
  | eviction ibd tipHeader localTotalDifficulty => exact coherent.eviction stepped
  | headersSynchronized peer sharedBest =>
      obtain ⟨next, done, same⟩ := Except.bind_eq_ok.mp stepped
      cases same
      exact coherent.headersSynchronized done
  | headerAccepted peer view =>
      cases stepped
      exact coherent.newHeaderReceived peer view
  | headersReceived peer count last ibd =>
      obtain ⟨disconnects, -, rfl, rfl⟩ := headersReceived_step stepped
      rw [applyEffect_of_ne_stopSync sync peer (by split <;> simp)]
      exact coherent.withPending _

theorem Coherent.step_eq_error (coherent : sync.Coherent) {event : SyncEvent} {message : String}
    (failed : sync.step now event = .error message) : message = "Peer must exists" := by
  cases event with
  | disconnected peer =>
      rcases Except.bind_eq_error.mp failed with done | ⟨_, _, same⟩
      · exact absurd done (coherent.disconnected_ne_error peer message)
      · cases same
  | eviction ibd tipHeader localTotalDifficulty =>
      rcases Except.bind_eq_error.mp failed with looped | ⟨_, _, same⟩
      · -- an armed timeout always has its tip, so no peer's check fails
        obtain ⟨entry, member, evicts⟩ := evictionLoop_eq_error looped
        obtain ⟨armedTimeout, noTip⟩ := evictPeer_eq_error evicts
        have hasTip := coherent.armed entry member armedTimeout
        rw [noTip] at hasTip
        cases hasTip
      · cases same
  | headersSynchronized peer sharedBest =>
      rcases Except.bind_eq_error.mp failed with done | ⟨_, _, same⟩
      · exact headersSynchronized_eq_error done
      · cases same
  | _ => cases failed

end Coherent

section SingleSync

variable {sync sync' : PeerSync} {now : Nat}

theorem startPeer_nSyncStarted_le (sync : PeerSync) (tip : Header) (peer : PeerIndex) :
    (sync.startPeer now tip peer).nSyncStarted ≤ sync.nSyncStarted + 1 := by
  unfold PeerSync.startPeer
  split
  · split
    · exact Nat.le_refl _
    · exact Nat.le_succ _
  · exact Nat.le_succ _

theorem startSyncLoop_ibd_le_one (tip : Header) (peers : List PeerIndex)
    (few : sync.nSyncStarted ≤ 1) : (startSyncLoop now true tip peers sync).1.nSyncStarted ≤ 1 := by
  induction peers generalizing sync with
  | nil => exact few
  | cons peer rest induction =>
      by_cases stops : (true && sync.nSyncStarted != 0) = true
      · rw [startSyncLoop, if_pos stops]
        exact few
      · -- none is syncing, so at most this peer starts
        have idle : sync.nSyncStarted = 0 := by simpa using stops
        obtain ⟨pending, sent, -, looped⟩ :=
          startSyncLoop_cons_of_continue peer rest (Bool.eq_false_iff.mpr stops)
        rw [looped]
        apply induction
        have started : (sync.startPeer now tip peer).nSyncStarted ≤ sync.nSyncStarted + 1 :=
          startPeer_nSyncStarted_le sync tip peer
        dsimp only
        omega

/-- The peers whose headers sync started. -/
def syncing (sync : PeerSync) : Nat :=
  sync.peers.state.countP fun entry => entry.2.syncStarted

theorem Coherent.syncing_step_le (coherent : sync.Coherent) {event : SyncEvent}
    {actions : List SyncAction} (other : ∀ ibd tip, event ≠ .startSyncHeaders ibd tip)
    (stepped : sync.step now event = .ok (sync', actions)) : sync'.syncing ≤ sync.syncing := by
  have coherent' := coherent.step stepped
  unfold syncing
  rw [← coherent.counted, ← coherent'.counted]
  cases event with
  | connected peer isOutbound =>
      cases stepped
      exact Nat.le_refl _
  | disconnected peer =>
      obtain ⟨next, done, same⟩ := Except.bind_eq_ok.mp stepped
      cases same
      rw [coherent'.counted, coherent.counted, (disconnected_eq_ok done).1]
      exact List.filter_sublist.countP_le
  | startSyncHeaders ibd tip => exact absurd rfl (other ibd tip)
  | eviction ibd tipHeader localTotalDifficulty =>
      rw [coherent'.counted, coherent.counted]
      obtain ⟨entries, looped, sent, evictedPeers, loop, rfl, -⟩ := eviction_eq_ok stepped
      obtain ⟨related, -, -⟩ := evictionLoop_related loop
      exact related.countP_le fun _ _ ⟨_, _, evicts⟩ => evicts.started_of_started
  | headersSynchronized peer sharedBest =>
      obtain ⟨next, done, same⟩ := Except.bind_eq_ok.mp stepped
      cases same
      rw [headersSynchronized_eq_ok done]
  | headerAccepted peer view =>
      cases stepped
      exact Nat.le_refl _
  | headersReceived peer count last ibd =>
      obtain ⟨disconnects, -, rfl, rfl⟩ := headersReceived_step stepped
      rw [applyEffect_nSyncStarted, if_neg (by split <;> simp)]

end SingleSync

section Promises

variable {sync sync' : PeerSync} {log log' : List (Nat × SyncAction)} {peer : PeerIndex}
  {clock now : Nat}

/-- A getheaders went to `peer` at least `gap` before `deadline`. -/
def AskedBefore (log : List (Nat × SyncAction)) (peer : PeerIndex) (gap deadline : Nat) : Prop :=
  ∃ sent header, sent + gap ≤ deadline ∧ (sent, SyncAction.getHeaders peer header) ∈ log

theorem AskedBefore.mono {gap deadline : Nat} (asked : AskedBefore log peer gap deadline)
    (more : ∀ action ∈ log, action ∈ log') : AskedBefore log' peer gap deadline := by
  obtain ⟨sent, header, early, member⟩ := asked
  exact ⟨sent, header, early, more _ member⟩

theorem AskedBefore.weaken {gap deadline : Nat} (asked : AskedBefore log peer gap deadline)
    {gap' deadline' : Nat} (sooner : deadline + gap' ≤ deadline' + gap) :
    AskedBefore log peer gap' deadline' := by
  obtain ⟨sent, header, early, member⟩ := asked
  exact ⟨sent, header, by omega, member⟩

/-- What the log vouches for of one peer: each timeout of its own was set a
full timeout after a getheaders sent to it. -/
structure Vouched (log : List (Nat × SyncAction)) (entry : PeerIndex × PeerState) : Prop where
  headersSync : ∀ timeout, entry.2.headersSyncTimeout = some timeout →
    AskedBefore log entry.1 headersDownloadTimeoutBase timeout
  chainSync : entry.2.chainSync.sentGetheaders = true →
    AskedBefore log entry.1 evictionHeadersResponseTime entry.2.chainSync.timeout

theorem Vouched.mono {entry : PeerIndex × PeerState} (vouched : Vouched log entry)
    (more : ∀ action ∈ log, action ∈ log') : Vouched log' entry :=
  ⟨fun timeout set => (vouched.headersSync timeout set).mono more,
    fun sent => (vouched.chainSync sent).mono more⟩

/-- A change of a peer's state that sets none of its timeouts keeps what the
log vouches for. -/
theorem Vouched.of_keeps {state state' : PeerState} (vouched : Vouched log (peer, state))
    (headersSync : ∀ timeout, state'.headersSyncTimeout = some timeout →
      state.headersSyncTimeout = some timeout)
    (chainSync : state'.chainSync.sentGetheaders = true →
      state.chainSync.sentGetheaders = true ∧ state'.chainSync.timeout = state.chainSync.timeout) :
    Vouched log (peer, state') where
  headersSync timeout set := vouched.headersSync timeout (headersSync timeout set)
  chainSync sent := by
    obtain ⟨sentBefore, sameTimeout⟩ := chainSync sent
    simpa only [sameTimeout] using vouched.chainSync sentBefore

/-- The requests in the cache went out at the times it holds, by `clock`. -/
def Cached (log : List (Nat × SyncAction)) (clock : Nat)
    (pending : List ((PeerIndex × H256) × Nat)) : Prop :=
  ∀ entry ∈ pending, entry.2 ≤ clock ∧ ∃ header, (entry.2, SyncAction.getHeaders entry.1.1 header) ∈ log

theorem Cached.mono {pending : List ((PeerIndex × H256) × Nat)} (cached : Cached log clock pending)
    (later : clock ≤ now) (more : ∀ action ∈ log, action ∈ log') : Cached log' now pending := by
  intro entry member
  obtain ⟨early, header, sent⟩ := cached entry member
  exact ⟨Nat.le_trans early later, header, more _ sent⟩

/-- After `send_getheaders_to_peer` the cache still vouches for its requests,
and the peer has had a getheaders by now: this one, or the one the cache
dropped it for. -/
theorem sendGetheadersToPeer_cached {pending pending' : List ((PeerIndex × H256) × Nat)}
    {header : Header} {sent : Bool} (cached : Cached log clock pending) (later : clock ≤ now)
    (sending : sendGetheadersToPeer pending now peer header = (pending', sent)) :
    Cached (log ++ (if sent then [SyncAction.getHeaders peer header] else []).map (now, ·)) now
        pending' ∧
      AskedBefore (log ++ (if sent then [SyncAction.getHeaders peer header] else []).map (now, ·))
        peer 0 now := by
  have logged : ∀ extended : List (Nat × SyncAction),
      (now, SyncAction.getHeaders peer header) ∈ log ++ [(now, SyncAction.getHeaders peer header)] :=
    fun _ => List.mem_append_right _ (List.mem_singleton_self _)
  unfold sendGetheadersToPeer at sending
  split at sending
  · rename_i lastTime found
    obtain ⟨early, old, oldSent⟩ := cached _ (LinkedMap.mem_of_get?_eq_some found)
    have kept : Cached log now (LinkedMap.insert pending (peer, header.hash) lastTime).1 :=
      LinkedMap.forall_insert (cached.mono later fun _ member => member)
        ⟨Nat.le_trans early later, old, oldSent⟩
    dsimp only at sending
    split at sending
    · -- dropped: the last request went out within the timeout
      cases sending
      simp only [Bool.false_eq_true, ↓reduceIte, List.map_nil, List.append_nil]
      exact ⟨kept, lastTime, old, by omega, oldSent⟩
    · cases sending
      simp only [↓reduceIte, List.map_cons, List.map_nil]
      refine ⟨LinkedMap.forall_insertLru
        (kept.mono (Nat.le_refl now) fun _ member => List.mem_append_left _ member)
        ⟨Nat.le_refl now, header, logged []⟩, now, header, by omega, logged []⟩
  · cases sending
    simp only [↓reduceIte, List.map_cons, List.map_nil]
    refine ⟨LinkedMap.forall_insertLru
      (cached.mono later fun _ member => List.mem_append_left _ member)
      ⟨Nat.le_refl now, header, logged []⟩, now, header, by omega, logged []⟩

/-- What the log promises: the cache holds only requests that went out, every
peer's timeouts are vouched for, and every peer `eviction` disconnected had
been sent getheaders more than `EVICTION_HEADERS_RESPONSE_TIME` before. -/
structure Promised (sync : PeerSync) (clock : Nat) (log : List (Nat × SyncAction)) : Prop where
  cached : Cached log clock sync.pendingGetHeaders
  vouched : ∀ entry ∈ sync.peers.state, Vouched log entry
  evicted : ∀ time peer, (time, SyncAction.evict peer) ∈ log →
    AskedBefore log peer (evictionHeadersResponseTime + 1) time

theorem new_promised : Promised new 0 [] where
  cached _ member := nomatch member
  vouched _ member := nomatch member
  evicted _ _ member := nomatch member

theorem Promised.mono (promised : Promised sync clock log) (later : clock ≤ now) :
    Promised sync now log :=
  ⟨promised.cached.mono later fun _ member => member, promised.vouched, promised.evicted⟩

theorem Promised.append (promised : Promised sync clock log) {added : List (Nat × SyncAction)}
    (noEvict : ∀ time peer, (time, SyncAction.evict peer) ∉ added) :
    Promised sync clock (log ++ added) where
  cached := promised.cached.mono (Nat.le_refl clock) fun _ member => List.mem_append_left _ member
  vouched entry member := (promised.vouched entry member).mono fun _ member =>
    List.mem_append_left _ member
  evicted time peer member := by
    rcases List.mem_append.mp member with old | new
    · exact (promised.evicted time peer old).mono fun _ member => List.mem_append_left _ member
    · exact absurd new (noEvict time peer)

theorem Promised.of_peers (promised : Promised sync clock log)
    (pending : sync'.pendingGetHeaders = sync.pendingGetHeaders)
    (vouched : ∀ entry ∈ sync'.peers.state, Vouched log entry) : Promised sync' clock log where
  cached := by
    rw [pending]
    exact promised.cached
  vouched := vouched
  evicted := promised.evicted

/-- A change in place of one peer's state that sets none of its timeouts. -/
theorem vouched_modify {entries : List (PeerIndex × PeerState)}
    (vouched : ∀ entry ∈ entries, Vouched log entry) {change : PeerState → PeerState}
    (headersSync : ∀ state timeout, (change state).headersSyncTimeout = some timeout →
      state.headersSyncTimeout = some timeout)
    (chainSync : ∀ state, (change state).chainSync.sentGetheaders = true →
      state.chainSync.sentGetheaders = true ∧
        (change state).chainSync.timeout = state.chainSync.timeout) :
    ∀ entry ∈ LinkedMap.modify entries peer change, Vouched log entry := by
  apply LinkedMap.forall_modify vouched
  intro state member
  exact (vouched _ member).of_keeps (headersSync state) (chainSync state)

theorem startPeer_pendingGetHeaders (sync : PeerSync) (tip : Header) (peer : PeerIndex) :
    (sync.startPeer now tip peer).pendingGetHeaders = sync.pendingGetHeaders := by
  unfold PeerSync.startPeer
  split
  · split <;> rfl
  · rfl

theorem headersDownloadTimeoutBase_le_predictHeadersSyncTime (now : Nat) (header : Header) :
    now + headersDownloadTimeoutBase ≤ predictHeadersSyncTime now header := by
  unfold predictHeadersSyncTime
  dsimp only
  omega

theorem startPeer_vouched {tip : Header} (vouched : ∀ entry ∈ sync.peers.state, Vouched log entry)
    (asked : AskedBefore log peer 0 now) :
    ∀ entry ∈ (sync.startPeer now tip peer).peers.state, Vouched log entry := by
  unfold PeerSync.startPeer
  split
  · split
    · dsimp only
      apply LinkedMap.forall_modify vouched
      intro state member
      refine ⟨?_, (vouched _ member).chainSync⟩
      intro timeout set
      cases set
      apply asked.weaken
      have := headersDownloadTimeoutBase_le_predictHeadersSyncTime now tip
      omega
    · exact vouched
  · exact vouched

theorem Promised.startSyncLoop (promised : Promised sync clock log) (later : clock ≤ now)
    (ibd : Bool) (tip : Header) (peers : List PeerIndex) :
    Promised (PeerSync.startSyncLoop now ibd tip peers sync).1 now
      (log ++ (PeerSync.startSyncLoop now ibd tip peers sync).2.map (now, ·)) := by
  induction peers generalizing sync clock log with
  | nil => simpa [PeerSync.startSyncLoop] using promised.mono later
  | cons peer rest induction =>
      by_cases stops : (ibd && sync.nSyncStarted != 0) = true
      · rw [PeerSync.startSyncLoop, if_pos stops]
        simpa using promised.mono later
      · obtain ⟨pending, sent, sending, looped⟩ :=
          startSyncLoop_cons_of_continue peer rest (Bool.eq_false_iff.mpr stops)
        rw [looped, List.map_append, ← List.append_assoc]
        have cachedStart : Cached log clock (sync.startPeer now tip peer).pendingGetHeaders := by
          rw [startPeer_pendingGetHeaders]
          exact promised.cached
        obtain ⟨cached, asked⟩ := sendGetheadersToPeer_cached cachedStart later sending
        have noEvict : ∀ time other, (time, SyncAction.evict other) ∉
            (if sent then [SyncAction.getHeaders peer tip] else []).map (now, ·) := by
          intro time other member
          cases sent <;> simp at member
        apply induction _ (Nat.le_refl now)
        exact
          { cached
            vouched := startPeer_vouched (fun entry member =>
              (promised.vouched entry member).mono fun _ member => List.mem_append_left _ member) asked
            evicted := (promised.append noEvict).evicted }

end Promises

section EvictionPromises

variable {sync sync' : PeerSync} {log : List (Nat × SyncAction)} {peer : PeerIndex}
  {clock now : Nat} {ibd : Bool} {tipHeader : Header} {localTotalDifficulty : Nat}

/-- One turn of `eviction` keeps the cache vouched for, and a getheaders it
asks for has gone out by now. -/
theorem applyEffect_cached (cached : Cached log clock sync.pendingGetHeaders) (later : clock ≤ now)
    (peer : PeerIndex) (effect : EvictionEffect) :
    Cached (log ++ (applyEffect sync now peer effect).2.1.map (now, ·)) now
        (applyEffect sync now peer effect).1.pendingGetHeaders ∧
      ∀ header, effect = .getHeaders header →
        AskedBefore (log ++ (applyEffect sync now peer effect).2.1.map (now, ·)) peer 0 now := by
  cases effect with
  | getHeaders header =>
      rcases sending : sendGetheadersToPeer sync.pendingGetHeaders now peer header with
        ⟨pending, sent⟩
      have applied : applyEffect sync now peer (.getHeaders header) =
          ({ sync with pendingGetHeaders := pending },
            if sent then [SyncAction.getHeaders peer header] else [], []) := by
        simp only [applyEffect, sending]
      rw [applied]
      obtain ⟨cached', asked⟩ := sendGetheadersToPeer_cached cached later sending
      refine ⟨cached', fun _ same => ?_⟩
      cases same
      exact asked
  | _ =>
      simp only [applyEffect, List.map_nil, List.append_nil]
      exact ⟨cached.mono later fun _ member => member, fun _ same => nomatch same⟩

/-- A peer's new state after its turn of `eviction` is vouched for: its
timeouts are the old ones, or a response time after the getheaders of the
turn. -/
theorem Evicted.vouched {state state' : PeerState} {effect : EvictionEffect} {log' : List (Nat × SyncAction)}
    (evicted : Evicted now ibd tipHeader localTotalDifficulty state state' effect)
    (vouched : Vouched log (peer, state)) (more : ∀ action ∈ log, action ∈ log')
    (asked : ∀ header, effect = .getHeaders header → AskedBefore log' peer 0 now) :
    Vouched log' (peer, state') := by
  have vouched' := vouched.mono more
  cases evicted with
  | getHeaders header work =>
      refine ⟨vouched'.headersSync, fun _ => ?_⟩
      apply (asked header rfl).weaken
      dsimp only
      omega
  | stopSync => exact vouched'.of_keeps (fun _ set => nomatch set) fun sent => ⟨sent, rfl⟩
  | clear => exact vouched'.of_keeps (fun _ set => set) fun sent => nomatch sent
  | arm => exact vouched'.of_keeps (fun _ set => set) fun sent => nomatch sent
  | _ => exact vouched'.of_keeps (fun _ set => set) fun sent => ⟨sent, rfl⟩

/-- A peer `eviction` disconnects had been sent getheaders more than
`EVICTION_HEADERS_RESPONSE_TIME` before: its headers sync was set a whole base
timeout after one, and its last chain-sync timeout a response time after
one. -/
theorem Evicted.asked {state state' : PeerState}
    (evicted : Evicted now ibd tipHeader localTotalDifficulty state state' .evict)
    (vouched : Vouched log (peer, state)) :
    AskedBefore log peer (evictionHeadersResponseTime + 1) now := by
  cases evicted with
  | headersTimeout timeout set expired _ =>
      apply (vouched.headersSync timeout set).weaken
      unfold headersDownloadTimeoutBase evictionHeadersResponseTime
      omega
  | evict sent _ expired =>
      apply (vouched.chainSync sent).weaken
      dsimp only
      omega

/-- The loop of `eviction` keeps the cache and every peer it goes through
vouched for. -/
theorem evictionLoop_promised :
    ∀ {entries entries' : List (PeerIndex × PeerState)} {sync sync' : PeerSync}
      {sent : List SyncAction} {evicted : List PeerIndex} {log : List (Nat × SyncAction)},
      evictionLoop now ibd tipHeader localTotalDifficulty entries sync =
        .ok (entries', sync', sent, evicted) →
      Cached log now sync.pendingGetHeaders → (∀ entry ∈ entries, Vouched log entry) →
      Cached (log ++ sent.map (now, ·)) now sync'.pendingGetHeaders ∧
        ∀ entry ∈ entries', Vouched (log ++ sent.map (now, ·)) entry := by
  intro entries
  induction entries with
  | nil =>
      intro entries' sync sync' sent evicted log looped cached _
      cases looped
      rw [List.map_nil, List.append_nil]
      exact ⟨cached, fun _ member => nomatch member⟩
  | cons entry rest induction =>
      obtain ⟨peer, state⟩ := entry
      intro entries' sync sync' sent evicted log looped cached vouched
      obtain ⟨state', effect, entries, restSent, restEvicted, evicts, loopedRest, rfl, rfl, rfl⟩ :=
        evictionLoop_cons_eq_ok looped
      obtain ⟨cachedHere, askedHere⟩ := applyEffect_cached cached (Nat.le_refl now) peer effect
      have vouchedHere := (evictPeer_evicted evicts).vouched (vouched _ List.mem_cons_self)
        (fun _ member => List.mem_append_left _ member) askedHere
      obtain ⟨cachedRest, vouchedRest⟩ := induction loopedRest cachedHere
        fun entry member => (vouched entry (List.mem_cons_of_mem _ member)).mono fun _ member =>
          List.mem_append_left _ member
      rw [List.map_append, ← List.append_assoc]
      refine ⟨cachedRest, fun entry member => ?_⟩
      rcases List.mem_cons.mp member with rfl | later
      · exact vouchedHere.mono fun _ member => List.mem_append_left _ member
      · exact vouchedRest entry later

theorem Promised.eviction (promised : Promised sync clock log) (later : clock ≤ now)
    {actions : List SyncAction}
    (evicted : sync.eviction now ibd tipHeader localTotalDifficulty = .ok (sync', actions)) :
    Promised sync' now (log ++ actions.map (now, ·)) := by
  obtain ⟨entries, looped, sent, evictedPeers, loop, rfl, rfl⟩ := eviction_eq_ok evicted
  obtain ⟨cached, vouched⟩ :=
    evictionLoop_promised loop (promised.cached.mono later fun _ member => member) promised.vouched
  obtain ⟨disconnecting, quiet⟩ := evictionLoop_evicted loop
  rw [List.map_append, ← List.append_assoc]
  have grows : ∀ action ∈ log ++ sent.map (now, ·),
      action ∈ log ++ sent.map (now, ·) ++ (evictedPeers.map SyncAction.evict).map (now, ·) :=
    fun _ member => List.mem_append_left _ member
  refine ⟨cached.mono (Nat.le_refl now) grows, fun entry member => (vouched entry member).mono grows, ?_⟩
  intro time other member
  rcases List.mem_append.mp member with early | disconnect
  · rcases List.mem_append.mp early with old | sentNow
    · exact (promised.evicted time other old).mono fun _ member =>
        grows _ (List.mem_append_left _ member)
    · obtain ⟨action, actionSent, same⟩ := List.mem_map.mp sentNow
      cases same
      exact absurd actionSent (quiet other)
  · -- a disconnect of this eviction, at its time, of a peer whose timeouts the log vouched for
    rw [List.map_map] at disconnect
    obtain ⟨evictedPeer, evictedMember, same⟩ := List.mem_map.mp disconnect
    cases same
    obtain ⟨state, state', member, evicts⟩ := disconnecting other evictedMember
    exact (evicts.asked (promised.vouched _ member)).mono fun _ member =>
      grows _ (List.mem_append_left _ member)

end EvictionPromises

section PromisedSteps

variable {sync sync' : PeerSync} {log : List (Nat × SyncAction)} {clock now : Nat}

theorem Promised.onConnected (promised : Promised sync clock log) (peer : PeerIndex) (isOutbound : Bool) :
    Promised (sync.onConnected peer isOutbound) clock log := by
  refine promised.of_peers rfl ?_
  unfold PeerSync.onConnected Peers.onConnected
  split
  · -- a known peer loses its headers-sync timeout and keeps its chain sync
    dsimp only
    refine vouched_modify promised.vouched ?_ ?_
    · intro _ _ set
      cases set
    · exact fun _ sent => ⟨sent, rfl⟩
  · -- a new peer has no timeout of its own yet
    dsimp only
    apply LinkedMap.forall_insert promised.vouched
    exact ⟨fun _ set => (by cases set), fun sent => by cases sent⟩

theorem Promised.disconnected (promised : Promised sync clock log) {peer : PeerIndex}
    (done : sync.disconnected peer = .ok sync') : Promised sync' clock log := by
  obtain ⟨left, -, pending, -⟩ := disconnected_eq_ok done
  refine promised.of_peers pending ?_
  rw [left]
  exact LinkedMap.forall_remove promised.vouched

theorem Promised.headersSynchronized (promised : Promised sync clock log) {peer : PeerIndex}
    {sharedBest : ScoredView} (done : sync.headersSynchronized peer sharedBest = .ok sync') :
    Promised sync' clock log := by
  rw [headersSynchronized_eq_ok done]
  refine promised.of_peers rfl ?_
  dsimp only [Peers.setBestKnownHeader]
  refine vouched_modify (vouched_modify promised.vouched ?_ ?_) ?_ ?_
  · exact fun _ _ set => set
  · exact fun _ sent => ⟨sent, rfl⟩
  · intro _ _ set
    cases set
  · exact fun _ sent => ⟨sent, rfl⟩

theorem Promised.newHeaderReceived (promised : Promised sync clock log) (peer : PeerIndex)
    (view : ScoredView) :
    Promised { sync with peers := sync.peers.newHeaderReceived peer view } clock log := by
  refine promised.of_peers rfl ?_
  dsimp only [Peers.newHeaderReceived]
  refine vouched_modify promised.vouched ?_ ?_
  · intro state timeout
    split
    · split <;> exact id
    · exact id
  · intro state
    split
    · split <;> exact fun sent => ⟨sent, rfl⟩
    · exact fun sent => ⟨sent, rfl⟩

theorem Promised.step (promised : Promised sync clock log) (later : clock ≤ now) {event : SyncEvent}
    {actions : List SyncAction} (stepped : sync.step now event = .ok (sync', actions)) :
    Promised sync' now (log ++ actions.map (now, ·)) := by
  have quiet : ∀ {next : PeerSync}, Promised next clock log →
      Promised next now (log ++ ([] : List SyncAction).map (now, ·)) := by
    intro next holds
    rw [List.map_nil, List.append_nil]
    exact holds.mono later
  cases event with
  | connected peer isOutbound =>
      cases stepped
      exact quiet (promised.onConnected peer isOutbound)
  | disconnected peer =>
      obtain ⟨next, done, same⟩ := Except.bind_eq_ok.mp stepped
      cases same
      exact quiet (promised.disconnected done)
  | startSyncHeaders ibd tip =>
      have started : sync.startSyncHeaders now ibd tip = (sync', actions) :=
        Except.pure_eq_ok.mp stepped
      have reached := promised.startSyncLoop later ibd tip
        ((sync.peers.state.filter fun entry => entry.2.canSync now).map Prod.fst)
      unfold PeerSync.startSyncHeaders at started
      rw [started] at reached
      exact reached
  | eviction ibd tipHeader localTotalDifficulty => exact promised.eviction later stepped
  | headersSynchronized peer sharedBest =>
      obtain ⟨next, done, same⟩ := Except.bind_eq_ok.mp stepped
      cases same
      exact quiet (promised.headersSynchronized done)
  | headerAccepted peer view =>
      cases stepped
      exact quiet (promised.newHeaderReceived peer view)
  | headersReceived peer count last ibd =>
      obtain ⟨disconnects, quietAfter, rfl, rfl⟩ := headersReceived_step stepped
      generalize (if count = maxHeadersLen then EvictionEffect.getHeaders last else .none) = effect
      have sent : Promised sync now (log ++ (applyEffect sync now peer effect).2.1.map (now, ·)) := by
        apply (promised.mono later).append
        intro time other member
        obtain ⟨action, sentNow, same⟩ := List.mem_map.mp member
        cases same
        exact applyEffect_ne_evict sync peer effect other sentNow
      have turned : Promised (applyEffect sync now peer effect).1 now
          (log ++ (applyEffect sync now peer effect).2.1.map (now, ·)) :=
        ⟨(applyEffect_cached promised.cached later peer effect).1,
          by rw [applyEffect_peers]; exact sent.vouched, sent.evicted⟩
      rw [List.map_append, ← List.append_assoc]
      apply turned.append
      intro time other member
      obtain ⟨action, disconnectNow, same⟩ := List.mem_map.mp member
      cases same
      exact quietAfter other disconnectNow

end PromisedSteps

section Runs

variable {events : List (Nat × SyncEvent)} {sync : PeerSync} {log : List (Nat × SyncAction)}

theorem Coherent.run {start : PeerSync} (coherent : start.Coherent)
    (ran : start.run events = .ok (sync, log)) : sync.Coherent :=
  TimedRun.run_invariant (fun _ _ _ _ _ _ holds stepped => holds.step stepped) coherent ran

/-- After every run from the empty synchronizer, `n_sync_started` is the
number of peers whose headers sync started; so `disconnected` never takes it
below zero, and the `fetch_sub` of `eviction` never wraps. -/
theorem nSyncStarted_eq_countP_syncStarted (ran : new.run events = .ok (sync, log)) :
    sync.nSyncStarted = sync.peers.state.countP fun entry => entry.2.syncStarted :=
  (new_coherent.run ran).counted

/-- An outbound peer that connects and starts its headers sync is the one
peer counted. -/
theorem startedPeer_counted :
    1 = [((1 : PeerIndex),
      (⟨true, some 360001, true, false, ⟨0, none, none, false, none, true⟩, none, none⟩ : PeerState))].countP
        fun entry => entry.2.syncStarted :=
  nSyncStarted_eq_countP_syncStarted
    (rfl : new.run [(0, .connected 1 true), (1, .startSyncHeaders true ⟨10, 0, 0, 1, ⟨9⟩, ⟨10⟩⟩)] =
      .ok (⟨⟨[(1, ⟨true, some 360001, true, false, ⟨0, none, none, false, none, true⟩, none, none⟩)]⟩,
          1, 1, [((1, ⟨10⟩), 1)]⟩,
        [(1, SyncAction.getHeaders 1 ⟨10, 0, 0, 1, ⟨9⟩, ⟨10⟩⟩)]))

/-- A run from the empty synchronizer fails only at the empty headers message
of a peer it does not know: the overflow check of `disconnected` and the
work header `eviction` expects are never missed. -/
theorem run_error_eq_peer_must_exists {message : String}
    (failed : new.run events = .error message) : message = "Peer must exists" :=
  TimedRun.run_error (fun _ _ _ _ _ holds stepped => Coherent.step holds stepped)
    (fun _ _ _ _ holds failed => holds.step_eq_error failed) new_coherent failed

/-- The empty headers message of a peer that never connected fails. -/
theorem unknownPeer_emptyHeaders_fails :
    new.run [(0, .headersSynchronized 7 ⟨⟨⟨10, 0, 0, 1, ⟨9⟩, ⟨10⟩⟩, none⟩, 5, 0⟩)] =
        .error "Peer must exists" ∧
      "Peer must exists" = "Peer must exists" :=
  ⟨rfl, run_error_eq_peer_must_exists
    (rfl : new.run [(0, .headersSynchronized 7 ⟨⟨⟨10, 0, 0, 1, ⟨9⟩, ⟨10⟩⟩, none⟩, 5, 0⟩)] =
      .error "Peer must exists")⟩

/-- After every run from the empty synchronizer, the protected peers are
counted by `n_protected_outbound_peers`, which never passes
`MAX_OUTBOUND_PEERS_TO_PROTECT_FROM_DISCONNECT`. -/
theorem protected_le_maxOutboundPeersToProtect (ran : new.run events = .ok (sync, log)) :
    (sync.peers.state.countP fun entry => entry.2.chainSync.protect) ≤
        sync.nProtectedOutboundPeers ∧
      sync.nProtectedOutboundPeers ≤ maxOutboundPeersToProtectFromDisconnect :=
  ⟨(new_coherent.run ran).protectedCounted, (new_coherent.run ran).protectBound⟩

/-- Of five outbound peers, the first four are protected. -/
theorem fiveOutbound_four_protected :
    ([1, 2, 3, 4, 5].map fun peer : PeerIndex =>
        (peer, PeerState.new true { ChainSyncState.default with protect := decide (peer < 5) } none)).countP
          (fun entry => entry.2.chainSync.protect) ≤ 4 ∧
      4 ≤ maxOutboundPeersToProtectFromDisconnect :=
  protected_le_maxOutboundPeersToProtect
    (rfl : new.run [(0, .connected 1 true), (0, .connected 2 true), (0, .connected 3 true),
        (0, .connected 4 true), (0, .connected 5 true)] =
      .ok (⟨⟨[1, 2, 3, 4, 5].map fun peer : PeerIndex =>
          (peer, PeerState.new true { ChainSyncState.default with protect := decide (peer < 5) } none)⟩,
        0, 4, []⟩, []))

/-- A run whose every `start_sync_headers` comes in initial block download
never has more than one peer syncing headers. -/
theorem syncing_le_one_of_ibd
    (ibdOnly : ∀ time ibd tip, (time, SyncEvent.startSyncHeaders ibd tip) ∈ events → ibd = true)
    (ran : new.run events = .ok (sync, log)) :
    (sync.peers.state.countP fun entry => entry.2.syncStarted) ≤ 1 := by
  have preserved : ∀ (state : PeerSync) now event (next : PeerSync) actions, (now, event) ∈ events →
      state.Coherent ∧ state.syncing ≤ 1 → state.step now event = .ok (next, actions) →
      next.Coherent ∧ next.syncing ≤ 1 := by
    rintro state now event next actions member ⟨coherent, few⟩ stepped
    have coherent' := coherent.step stepped
    refine ⟨coherent', ?_⟩
    cases event with
    | startSyncHeaders ibd tip =>
        -- in initial block download the loop starts a peer only while none syncs
        rw [ibdOnly now ibd tip member] at stepped
        have started : state.startSyncHeaders now true tip = (next, actions) :=
          Except.pure_eq_ok.mp stepped
        unfold PeerSync.startSyncHeaders at started
        have fewBefore : state.nSyncStarted ≤ 1 := by
          rw [coherent.counted]
          exact few
        have bounded : (startSyncLoop now true tip
            ((state.peers.state.filter fun entry => entry.2.canSync now).map Prod.fst) state).1.nSyncStarted
              ≤ 1 :=
          startSyncLoop_ibd_le_one tip _ fewBefore
        rw [started] at bounded
        unfold syncing
        rw [← coherent'.counted]
        exact bounded
    | _ => exact (coherent.syncing_step_le (fun _ _ same => by cases same) stepped).trans few
  exact (TimedRun.run_invariant preserved ⟨new_coherent, Nat.zero_le 1⟩ ran).2

/-- Two outbound peers in initial block download: the first to be asked
starts its headers sync, and the second waits. -/
theorem ibd_second_peer_waits :
    ([((1 : PeerIndex),
        (⟨true, some 360001, true, false, ⟨0, none, none, false, none, true⟩, none, none⟩ : PeerState)),
      (2, ⟨false, none, true, false, ⟨0, none, none, false, none, true⟩, none, none⟩)].countP
        fun entry => entry.2.syncStarted) ≤ 1 :=
  syncing_le_one_of_ibd (by simp)
    (rfl : new.run [(0, .connected 1 true), (0, .connected 2 true),
        (1, .startSyncHeaders true ⟨10, 0, 0, 1, ⟨9⟩, ⟨10⟩⟩)] =
      .ok (⟨⟨[(1, ⟨true, some 360001, true, false, ⟨0, none, none, false, none, true⟩, none, none⟩),
          (2, ⟨false, none, true, false, ⟨0, none, none, false, none, true⟩, none, none⟩)]⟩,
          1, 2, [((1, ⟨10⟩), 1)]⟩,
        [(1, SyncAction.getHeaders 1 ⟨10, 0, 0, 1, ⟨9⟩, ⟨10⟩⟩)]))

/-- In every run from the empty synchronizer whose events come in the order of
their times, a peer is disconnected by `eviction` only more than
`EVICTION_HEADERS_RESPONSE_TIME` after it was sent a getheaders. -/
theorem evict_after_getheaders (ordered : (events.map Prod.fst).Pairwise (· ≤ ·))
    (ran : new.run events = .ok (sync, log)) {time : Nat} {peer : PeerIndex}
    (disconnected : (time, SyncAction.evict peer) ∈ log) :
    ∃ sent header, sent + evictionHeadersResponseTime < time ∧
      (sent, SyncAction.getHeaders peer header) ∈ log := by
  obtain ⟨clock, promised⟩ := TimedRun.run_log_invariant
    (fun _ _ _ _ _ _ _ holds later stepped => holds.step later stepped) ordered
    (fun _ _ => Nat.zero_le _) new_promised ran
  rw [List.nil_append] at promised
  obtain ⟨sent, header, early, logged⟩ := promised.evicted time peer disconnected
  exact ⟨sent, header, by omega, logged⟩

/-- An outbound peer that connects, starts its headers sync in initial block
download and has not finished it by its timeout is disconnected; the
getheaders it was sent at its start came six minutes before. -/
theorem stalledSync_evicted_after_getheaders :
    ∃ sent header, sent + evictionHeadersResponseTime < 360002 ∧
      (sent, SyncAction.getHeaders 1 header) ∈
        [(1, SyncAction.getHeaders 1 ⟨10, 0, 0, 1, ⟨9⟩, ⟨10⟩⟩), (360002, SyncAction.evict 1)] :=
  evict_after_getheaders (by decide)
    (rfl : new.run [(0, .connected 1 true), (1, .startSyncHeaders true ⟨10, 0, 0, 1, ⟨9⟩, ⟨10⟩⟩),
        (360002, .eviction true ⟨10, 0, 0, 1, ⟨9⟩, ⟨10⟩⟩ 5)] =
      .ok (⟨⟨[(1, ⟨true, some 360001, true, true, ⟨0, none, none, false, none, true⟩, none, none⟩)]⟩,
          1, 1, [((1, ⟨10⟩), 1)]⟩,
        [(1, SyncAction.getHeaders 1 ⟨10, 0, 0, 1, ⟨9⟩, ⟨10⟩⟩), (360002, SyncAction.evict 1)]))
    (by simp)

/-- The guards under which the chain-sync check finds an outbound peer still
behind our tip at the timeout of the getheaders it was sent. -/
structure Lagging (now localTotalDifficulty : Nat) (state : PeerState) : Prop where
  outbound : state.isOutbound = true
  behind : ∀ view, state.bestKnownHeader = some view → view.totalDifficulty < localTotalDifficulty
  stalled : ∀ view, state.bestKnownHeader = some view →
    ∃ difficulty, state.chainSync.totalDifficulty = some difficulty ∧
      view.totalDifficulty < difficulty
  armed : 0 < state.chainSync.timeout
  expired : state.chainSync.timeout < now
  sent : state.chainSync.sentGetheaders = true

section Lagging

variable {now : Nat} {tipHeader : Header} {localTotalDifficulty : Nat} {state : PeerState}

theorem evictOutbound_of_lagging (lagging : Lagging now localTotalDifficulty state)
    (guarded : state.chainSync.protect = true) :
    evictOutbound now tipHeader localTotalDifficulty state =
      .ok (if state.syncStarted then (state.stopSync (now + protectStopSyncTime), .stopSync)
        else (state, .none)) := by
  have notAhead : (state.bestKnownHeader.map fun view =>
      decide (localTotalDifficulty ≤ view.totalDifficulty)).getD false = false := by
    cases known : state.bestKnownHeader with
    | none => rfl
    | some view => simpa using lagging.behind view known
  have notCaughtUp : (state.chainSync.timeout == 0 || (state.bestKnownHeader.isSome &&
      optionGe (state.bestKnownHeader.map ScoredView.totalDifficulty)
        state.chainSync.totalDifficulty)) = false := by
    cases known : state.bestKnownHeader with
    | none => simpa using Nat.pos_iff_ne_zero.mp lagging.armed
    | some view =>
        obtain ⟨difficulty, recorded, below⟩ := lagging.stalled view known
        simpa [optionGe, recorded, below] using Nat.pos_iff_ne_zero.mp lagging.armed
  unfold evictOutbound
  simp only [lagging.outbound, notAhead, notCaughtUp, lagging.armed, lagging.expired,
    lagging.sent, guarded, decide_true, Bool.and_self, Bool.not_true, Bool.false_eq_true, if_false,
    if_true]
  split <;> rfl

theorem evictPeer_of_lagging (lagging : Lagging now localTotalDifficulty state)
    (guarded : state.chainSync.protect = true) :
    evictPeer now false tipHeader localTotalDifficulty state =
      .ok (if state.syncStarted then (state.stopSync (now + protectStopSyncTime), .stopSync)
        else (state, .none)) := by
  unfold evictPeer
  split <;> simp [evictOutbound_of_lagging lagging guarded]

end Lagging

/-- The loop of `eviction` leaves, for each peer it goes through, the state
that the peer's own turn gives. -/
theorem evictionLoop_mem {now : Nat} {ibd : Bool} {tipHeader : Header} {localTotalDifficulty : Nat}
    {peer : PeerIndex} {state state' : PeerState} {effect : EvictionEffect}
    (turn : evictPeer now ibd tipHeader localTotalDifficulty state = .ok (state', effect)) :
    ∀ {entries entries' : List (PeerIndex × PeerState)} {sync sync' : PeerSync}
      {sent : List SyncAction} {evicted : List PeerIndex},
      evictionLoop now ibd tipHeader localTotalDifficulty entries sync =
        .ok (entries', sync', sent, evicted) →
      (peer, state) ∈ entries → (peer, state') ∈ entries' := by
  intro entries
  induction entries with
  | nil => exact fun _ member => nomatch member
  | cons entry rest induction =>
      obtain ⟨other, otherState⟩ := entry
      intro entries' sync sync' sent evicted looped member
      obtain ⟨otherState', otherEffect, entries, restSent, restEvicted, evicts, loopedRest, rfl,
        -, -⟩ := evictionLoop_cons_eq_ok looped
      rcases List.mem_cons.mp member with here | later
      · obtain ⟨rfl, rfl⟩ := Prod.mk.inj here
        rw [turn] at evicts
        obtain ⟨rfl, -⟩ := Prod.mk.inj (Except.ok.inj evicts)
        exact List.mem_cons_self
      · exact List.mem_cons_of_mem _ (induction loopedRest later)

/-- Outside initial block download `eviction` never disconnects a protected
peer: one found behind our tip at the timeout of its getheaders stops syncing
instead, if it was syncing, and is left as it was otherwise. -/
theorem eviction_spares_protected {sync sync' : PeerSync} {now : Nat} {tipHeader : Header}
    {localTotalDifficulty : Nat} {actions : List SyncAction}
    (evicted : sync.eviction now false tipHeader localTotalDifficulty = .ok (sync', actions))
    (unique : (sync.peers.state.map Prod.fst).Nodup) :
    (∀ peer, SyncAction.evict peer ∈ actions →
      ∃ state, (peer, state) ∈ sync.peers.state ∧ state.chainSync.protect = false) ∧
    ∀ peer state, (peer, state) ∈ sync.peers.state → state.chainSync.protect = true →
      Lagging now localTotalDifficulty state →
      SyncAction.evict peer ∉ actions ∧
        (peer, if state.syncStarted then state.stopSync (now + protectStopSyncTime) else state) ∈
          sync'.peers.state := by
  obtain ⟨entries, looped, sent, evictedPeers, loop, rfl, rfl⟩ := eviction_eq_ok evicted
  obtain ⟨disconnecting, quiet⟩ := evictionLoop_evicted loop
  have unprotected : ∀ peer, SyncAction.evict peer ∈ sent ++ evictedPeers.map SyncAction.evict →
      ∃ state, (peer, state) ∈ sync.peers.state ∧ state.chainSync.protect = false := by
    intro peer disconnect
    rcases List.mem_append.mp disconnect with sentNow | evictedNow
    · exact absurd sentNow (quiet peer)
    · obtain ⟨other, member, same⟩ := List.mem_map.mp evictedNow
      cases same
      obtain ⟨state, state', listed, evicts⟩ := disconnecting peer member
      -- no headers sync times out outside initial block download, and the
      -- chain-sync check disconnects only unprotected peers
      cases evicts with
      | headersTimeout _ _ _ inIbd => cases inIbd
      | evict _ unprotected _ => exact ⟨state, listed, unprotected⟩
  refine ⟨unprotected, fun peer state listed guarded lagging => ⟨fun disconnect => ?_, ?_⟩⟩
  · obtain ⟨other, otherListed, otherUnprotected⟩ := unprotected peer disconnect
    have same : other = state := by
      have found := (LinkedMap.mem_iff_get?_of_nodup unique).mp otherListed
      rw [(LinkedMap.mem_iff_get?_of_nodup unique).mp listed] at found
      exact (Option.some.inj found).symm
    rw [same, guarded] at otherUnprotected
    cases otherUnprotected
  · have turn : evictPeer now false tipHeader localTotalDifficulty state = _ :=
      evictPeer_of_lagging lagging guarded
    by_cases started : state.syncStarted
    · simp only [started, if_true] at turn ⊢
      exact evictionLoop_mem turn loop listed
    · simp only [started, Bool.false_eq_true, if_false] at turn ⊢
      exact evictionLoop_mem turn loop listed

/-- Two outbound peers stay behind our tip past the timeout of their
getheaders: the unprotected one is disconnected and the protected one, which
was syncing, stops. -/
def laggingPeers : PeerSync :=
  ⟨⟨[(1, ⟨false, none, true, false, ⟨5, none, none, true, none, false⟩, none, none⟩),
    (2, ⟨true, none, true, false, ⟨5, none, none, true, none, true⟩, none, none⟩)]⟩, 1, 1, []⟩

theorem laggingPeer_unprotected :
    (∃ state, (1, state) ∈ laggingPeers.peers.state ∧ state.chainSync.protect = false) ∧
      SyncAction.evict 2 ∉ [SyncAction.evict 1] ∧
      ((2 : PeerIndex),
          (⟨false, none, true, false, ⟨5, none, none, true, some 300010, true⟩, none, none⟩ :
            PeerState)) ∈
        [(1, ⟨false, none, true, true, ⟨5, none, none, true, none, false⟩, none, none⟩),
          (2, ⟨false, none, true, false, ⟨5, none, none, true, some 300010, true⟩, none, none⟩)] := by
  have evicted : laggingPeers.eviction 10 false ⟨10, 0, 0, 1, ⟨9⟩, ⟨10⟩⟩ 5 =
      .ok (⟨⟨[(1, ⟨false, none, true, true, ⟨5, none, none, true, none, false⟩, none, none⟩),
          (2, ⟨false, none, true, false, ⟨5, none, none, true, some 300010, true⟩, none, none⟩)]⟩,
          0, 1, []⟩, [.evict 1]) :=
    rfl
  obtain ⟨spared, stopped⟩ := eviction_spares_protected evicted (by decide)
  have listed : ((2 : PeerIndex),
      (⟨true, none, true, false, ⟨5, none, none, true, none, true⟩, none, none⟩ : PeerState)) ∈
        laggingPeers.peers.state := by
    simp [laggingPeers]
  obtain ⟨kept, left⟩ := stopped 2 _ listed rfl
    ⟨rfl, (fun _ known => nomatch known), (fun _ known => nomatch known), by decide, by decide,
      rfl⟩
  exact ⟨spared 1 (List.mem_singleton_self _), kept, left⟩

end Runs

end PeerSync

end Ckb

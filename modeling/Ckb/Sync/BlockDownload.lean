import Mathlib
import Ckb.Sync.BlockFetcher

/-!
# Downloading blocks

The synchronizer downloads blocks through the in-flight record
(`sync/src/synchronizer/mod.rs`, `sync/src/types.rs`): on its timer
`find_blocks_to_fetch` prunes the record and runs a `BlockFetcher` for each
peer whose headers sync started, sending each nonempty fetch in a getblocks
message; a block that arrives leaves the record (`new_block_received`), and so
does a peer that disconnects (`SyncSharedState::disconnected`).  The relayer
shares the record: a compact block with missing transactions is recorded as in
flight from its peer before their request goes out.  These are the events of
one machine over the peers and the record.

A fetch never takes a peer past `MAX_BLOCKS_IN_TRANSIT_PER_PEER` blocks in
flight, and the removals only shrink the peers' sets; so along every run of the
synchronizer from the empty record the record stays consistent, no peer has
more than that many blocks in flight, and every getblocks message is nonempty
and within that bound (`download_inflight_bounded`).  The relayer's insert does
not look at that limit, and each of its asks may take a peer one block past it
(`relayed_inflight_bounded`).
-/

namespace Ckb

/-- A getblocks message: the hashes asked of a peer. -/
structure GetBlocks where
  peer : PeerIndex
  hashes : List H256
  deriving DecidableEq, Repr

/-- The loop of `find_blocks_to_fetch`: each peer in turn is fetched from by a
`BlockFetcher` made with our tip, and a nonempty fetch is sent. -/
def fetchFromPeers (shared : SyncSharedState) (sharedBest : ScoredView)
    (blockStatusMap : H256 → Option Nat) (now : Nat) (tipHeader : Header) (totalDifficulty : Nat) :
    List PeerIndex → Peers → InflightBlocks → Except String (Peers × InflightBlocks × List GetBlocks)
  | [], peers, inflight => pure (peers, inflight, [])
  | peer :: rest, peers, inflight => do
    let (peers, inflight, fetched) ← (⟨peer, tipHeader, totalDifficulty⟩ : BlockFetcher).fetch shared
      sharedBest blockStatusMap now peers inflight
    let sent : List GetBlocks := match fetched with
      | some fetch => if fetch.isEmpty then [] else [⟨peer, fetch⟩]
      | none => []
    let (peers, inflight, later) ←
      fetchFromPeers shared sharedBest blockStatusMap now tipHeader totalDifficulty rest peers inflight
    pure (peers, inflight, sent ++ later)

/-- What the synchronizer keeps for downloading blocks: the peers' states and
the blocks in flight. -/
structure BlockDownload where
  peers : Peers
  inflight : InflightBlocks

namespace BlockDownload

/-- `find_blocks_to_fetch`: the peers whose headers sync started, then the
pruned record, then a fetch from each of them. -/
def findBlocksToFetch (download : BlockDownload) (now : Nat) (shared : SyncSharedState)
    (sharedBest : ScoredView) (blockStatusMap : H256 → Option Nat) (tipHeader : Header)
    (totalDifficulty : Nat) : Except String (BlockDownload × List GetBlocks) := do
  let peers := (download.peers.state.filter fun entry => entry.2.syncStarted).map Prod.fst
  let inflight := download.inflight.prune now
  let (peers', inflight, sent) ←
    fetchFromPeers shared sharedBest blockStatusMap now tipHeader totalDifficulty peers download.peers
      inflight
  pure (⟨peers', inflight⟩, sent)

/-- The events of the block download; the timer's round carries what it reads
of the chain and of the headers. -/
inductive Event where
  | findBlocksToFetch (shared : SyncSharedState) (sharedBest : ScoredView)
      (blockStatusMap : H256 → Option Nat) (tipHeader : Header) (totalDifficulty : Nat)
  | newBlockReceived (hash : H256)
  | disconnected (peer : PeerIndex)
  /-- The relayer's ask for the missing transactions of a compact block from
  `peer` (`compact_block_process.rs`), which records the block as in flight
  from it. -/
  | getBlockTransactions (peer : PeerIndex) (hash : H256)

/-- Whether the event is the relayer's ask of `peer`. -/
def Event.isRelayerAsk (peer : PeerIndex) : Event → Bool
  | .getBlockTransactions other _ => other == peer
  | _ => false

def step (download : BlockDownload) (now : Nat) : Event → Except String (BlockDownload × List GetBlocks)
  | .findBlocksToFetch shared sharedBest blockStatusMap tipHeader totalDifficulty =>
    download.findBlocksToFetch now shared sharedBest blockStatusMap tipHeader totalDifficulty
  | .newBlockReceived hash => pure ({ download with inflight := (download.inflight.removeByBlock hash).1 }, [])
  | .disconnected peer =>
    pure (⟨⟨(LinkedMap.remove download.peers.state peer).1⟩, (download.inflight.removeByPeer peer).1⟩, [])
  | .getBlockTransactions peer hash =>
    pure ({ download with inflight := (download.inflight.insert now peer hash).1 }, [])

def run (download : BlockDownload) (events : List (Nat × Event)) :
    Except String (BlockDownload × List (Nat × GetBlocks)) :=
  TimedRun.run step download events

end BlockDownload

/-! ### Counts of blocks in flight -/

namespace InflightBlocks

variable {inflight : InflightBlocks} {now : Nat} {peer other : PeerIndex} {hash : H256}

theorem peerInflightCount_eq_length (inflight : InflightBlocks) (peer : PeerIndex) :
    inflight.peerInflightCount peer = (inflight.requestedBy peer).length := by
  unfold peerInflightCount requestedBy
  cases inflight.blocks peer <;> rfl

theorem peerInflightCount_mk {blocks : PeerIndex → Option (List H256)}
    {states : List (H256 × InflightState)} :
    (⟨blocks, states⟩ : InflightBlocks).peerInflightCount peer = ((blocks peer).map List.length).getD 0 :=
  rfl

theorem count_removeFrom_le (blocks : PeerIndex → Option (List H256)) (peer other : PeerIndex)
    (hash : H256) :
    ((removeFrom blocks peer hash other).map List.length).getD 0 ≤
      ((blocks other).map List.length).getD 0 := by
  unfold removeFrom
  cases found : blocks peer with
  | none => exact le_rfl
  | some set =>
      dsimp only
      by_cases same : other = peer
      · subst same
        rw [Function.update_self, found]
        exact List.length_filter_le _ _
      · rw [Function.update_of_ne same]

theorem count_foldl_removeFrom_le (hash : H256) (other : PeerIndex) :
    ∀ (peers : List PeerIndex) (blocks : PeerIndex → Option (List H256)),
      (((peers.foldl (fun blocks peer => removeFrom blocks peer hash) blocks) other).map
          List.length).getD 0 ≤ ((blocks other).map List.length).getD 0
  | [], _ => le_rfl
  | peer :: rest, blocks =>
      (count_foldl_removeFrom_le hash other rest _).trans (count_removeFrom_le blocks peer other hash)

theorem peerInflightCount_removeByBlock_le (hash : H256) (other : PeerIndex) :
    (inflight.removeByBlock hash).1.peerInflightCount other ≤ inflight.peerInflightCount other := by
  unfold removeByBlock
  split
  · exact le_rfl
  · rename_i state _
    exact count_foldl_removeFrom_le hash other state.peers inflight.blocks

theorem peerInflightCount_removeByPeer_le (peer other : PeerIndex) :
    (inflight.removeByPeer peer).1.peerInflightCount other ≤ inflight.peerInflightCount other := by
  unfold removeByPeer
  split
  · exact le_rfl
  · rw [peerInflightCount_mk]
    by_cases same : other = peer
    · subst same
      rw [Function.update_self]
      exact Nat.zero_le _
    · rw [Function.update_of_ne same]
      rfl

theorem peerInflightCount_prune_le (now : Nat) (other : PeerIndex) :
    (inflight.prune now).peerInflightCount other ≤ inflight.peerInflightCount other := by
  unfold prune
  rw [peerInflightCount_mk]
  -- the pruning loop runs over the states, each outdated one taken out of its peers' sets
  suffices loop : ∀ (states : List (H256 × InflightState)) (blocks : PeerIndex → Option (List H256)),
      (((states.foldl (fun blocks entry =>
          if outdated now entry.2 then
            entry.2.peers.foldl (fun blocks peer => removeFrom blocks peer entry.1) blocks
          else blocks) blocks) other).map List.length).getD 0 ≤
        ((blocks other).map List.length).getD 0 from
    loop inflight.states inflight.blocks
  intro states
  induction states with
  | nil => exact fun _ => le_rfl
  | cons entry rest induction =>
      intro blocks
      refine (induction _).trans ?_
      dsimp only
      split
      · exact count_foldl_removeFrom_le entry.1 other entry.2.peers blocks
      · exact le_rfl

theorem peerInflightCount_insert_of_ne (differ : other ≠ peer) :
    (inflight.insert now peer hash).1.peerInflightCount other = inflight.peerInflightCount other := by
  by_cases full : maxPeersPerBlock ≤ (inflight.peersOf hash).length
  · rw [insert_of_full full]
    rfl
  have room := Nat.lt_of_not_le full
  by_cases requested : hash ∈ inflight.requestedBy peer
  · rw [insert_of_requested room requested, peerInflightCount_mk, Function.update_of_ne differ]
    rfl
  · rw [insert_of_fresh room requested, peerInflightCount_mk, Function.update_of_ne differ]
    rfl

theorem peerInflightCount_insert_le :
    (inflight.insert now peer hash).1.peerInflightCount peer ≤
      inflight.peerInflightCount peer + if (inflight.insert now peer hash).2 then 1 else 0 := by
  by_cases full : maxPeersPerBlock ≤ (inflight.peersOf hash).length
  · rw [insert_of_full full]
    exact Nat.le_add_right _ _
  have room := Nat.lt_of_not_le full
  by_cases requested : hash ∈ inflight.requestedBy peer
  · rw [insert_of_requested room requested, peerInflightCount_eq_length, requestedBy_update, if_pos rfl,
      Option.getD_some, peerInflightCount_eq_length]
    exact (LinkedSet.length_insert_of_mem requested).trans (Nat.le_add_right _ _)
  · rw [insert_of_fresh room requested, peerInflightCount_eq_length, requestedBy_update, if_pos rfl,
      Option.getD_some, peerInflightCount_eq_length]
    exact LinkedSet.length_insert_le _ _

end InflightBlocks

/-! ### What a fetch adds to the record -/

namespace BlockFetcher

variable {fetcher : BlockFetcher} {shared : SyncSharedState} {blockStatusMap : H256 → Option Nat}
  {now : Nat} {inflight inflight' : InflightBlocks} {result : Option (List H256)}

/-- A `fetch` either leaves the record and asks for nothing, or finds the peer
below its limit and runs the loop of a window. -/
theorem fetch_eq_ok {sharedBest : ScoredView} {peers peers' : Peers}
    (fetched : fetcher.fetch shared sharedBest blockStatusMap now peers inflight =
      .ok (peers', inflight', result)) :
    (inflight' = inflight ∧ result = none) ∨
      (fetcher.reachedInflightLimit inflight = false ∧
        ∃ best fixed, fetcher.fetchWindow shared blockStatusMap now best fixed inflight =
          .ok (inflight', result)) := by
  unfold fetch at fetched
  split at fetched
  · cases fetched
    exact .inl ⟨rfl, rfl⟩
  rename_i belowLimit
  have belowLimit' : fetcher.reachedInflightLimit inflight = false := by simpa using belowLimit
  split at fetched
  · cases fetched
    exact .inl ⟨rfl, rfl⟩
  rename_i best _
  split at fetched
  · cases fetched
    exact .inl ⟨rfl, rfl⟩
  obtain ⟨known, -, rest⟩ := Except.bind_eq_ok.mp fetched
  split at rest
  · cases rest
    exact .inl ⟨rfl, rfl⟩
  obtain ⟨⟨peersFixed, fixed⟩, -, rest⟩ := Except.bind_eq_ok.mp rest
  dsimp only at rest
  cases fixed with
  | none =>
      cases rest
      exact .inl ⟨rfl, rfl⟩
  | some fixed =>
      dsimp only at rest
      split at rest
      · cases rest
        exact .inl ⟨rfl, rfl⟩
      obtain ⟨⟨inflightWindow, window⟩, windowRan, rest⟩ := Except.bind_eq_ok.mp rest
      cases Except.pure_eq_ok.mp rest
      exact .inr ⟨belowLimit', best, fixed, windowRan⟩

/-- A window either leaves the record and asks for nothing, or runs its loop
with room for what the peer lacks of its limit. -/
theorem fetchWindow_eq_ok {best : ScoredView} {fixed : Header}
    (window : fetcher.fetchWindow shared blockStatusMap now best fixed inflight = .ok (inflight', result)) :
    (inflight' = inflight ∧ result = none) ∨
      ∃ maxHeight maxHeightHeader fuel, fetcher.fetchLoop shared (shared.getBlockStatus blockStatusMap) now
        maxHeight (maxBlocksInTransitPerPeer - inflight.peerInflightCount fetcher.peer) maxHeightHeader fuel
        fixed.number inflight [] = .ok (inflight', result) := by
  unfold fetchWindow at window
  obtain ⟨top?, -, rest⟩ := Except.bind_eq_ok.mp window
  cases top? with
  | none =>
      cases rest
      exact .inl ⟨rfl, rfl⟩
  | some top => exact .inr ⟨_, top, _, rest⟩

/-- What the loop of `fetch` has done to the record: it stays consistent, the
peer's count grew by at most the blocks asked, at most `count` of them, and the
other peers' counts stayed. -/
def Counted (peer : PeerIndex) (count : Nat) (before inflight : InflightBlocks) (fetch : List H256) :
    Prop :=
  inflight.Consistent ∧ inflight.peerInflightCount peer ≤ before.peerInflightCount peer + fetch.length ∧
    fetch.length ≤ count ∧
    ∀ other, other ≠ peer → inflight.peerInflightCount other = before.peerInflightCount other

theorem Counted.round {status : H256 → Nat} {count : Nat} {before : InflightBlocks}
    {fetch : List H256} {toFetch : Header} (counted : Counted fetcher.peer count before inflight fetch)
    (room : fetch.length < count) :
    Counted fetcher.peer count before (fetcher.fetchRound status now toFetch inflight fetch).1
      (fetcher.fetchRound status now toFetch inflight fetch).2 := by
  rcases @fetchRound_eq fetcher status now toFetch inflight fetch with same | ⟨-, asking⟩
  · rw [same]
    exact counted
  rw [asking]
  obtain ⟨consistent, own, within, others⟩ := counted
  have grown := @InflightBlocks.peerInflightCount_insert_le inflight now fetcher.peer toFetch.hash
  refine ⟨consistent.insert now fetcher.peer toFetch.hash, ?_, ?_, ?_⟩
  · cases inserted : (inflight.insert now fetcher.peer toFetch.hash).2 with
    | false =>
        rw [inserted, if_neg Bool.false_ne_true] at grown
        dsimp only
        rw [if_neg Bool.false_ne_true]
        omega
    | true =>
        rw [inserted, if_pos rfl] at grown
        dsimp only
        rw [if_pos rfl, List.length_append, List.length_singleton]
        omega
  · dsimp only
    split
    · rw [List.length_append, List.length_singleton]
      omega
    · exact within
  · intro other differ
    rw [InflightBlocks.peerInflightCount_insert_of_ne differ]
    exact others other differ

/-- A `fetch` from a consistent record leaves it consistent, raises no peer's
count past the larger of its count and `MAX_BLOCKS_IN_TRANSIT_PER_PEER`, and
asks for no more blocks than that bound. -/
theorem fetch_counted {sharedBest : ScoredView} {peers peers' : Peers} (consistent : inflight.Consistent)
    (fetched : fetcher.fetch shared sharedBest blockStatusMap now peers inflight =
      .ok (peers', inflight', result)) :
    inflight'.Consistent ∧
      (∀ other, inflight'.peerInflightCount other ≤
        max (inflight.peerInflightCount other) maxBlocksInTransitPerPeer) ∧
      ∀ hashes, result = some hashes → hashes.length ≤ maxBlocksInTransitPerPeer := by
  rcases fetch_eq_ok fetched with ⟨rfl, rfl⟩ | ⟨belowLimit, best, fixed, window⟩
  · exact ⟨consistent, fun _ => le_max_left _ _, fun _ asked => nomatch asked⟩
  have below : inflight.peerInflightCount fetcher.peer < maxBlocksInTransitPerPeer := by
    simpa [reachedInflightLimit] using belowLimit
  rcases fetchWindow_eq_ok window with ⟨rfl, rfl⟩ | ⟨maxHeight, top, fuel, loop⟩
  · exact ⟨consistent, fun _ => le_max_left _ _, fun _ asked => nomatch asked⟩
  obtain ⟨reached, asks, counted, asked⟩ := fetchLoop_invariant
    (fun _ current fetch => Counted fetcher.peer
      (maxBlocksInTransitPerPeer - inflight.peerInflightCount fetcher.peer) inflight current fetch)
    (fun _ _ _ _ holds _ room _ => Counted.round holds room) _ _ _ _
    ⟨consistent, by simp, Nat.zero_le _, fun _ _ => rfl⟩ loop
  obtain ⟨consistent', own, within, others⟩ := counted
  refine ⟨consistent', ?_, ?_⟩
  · intro other
    by_cases same : other = fetcher.peer
    · -- the peer had room for what it was asked, and no more
      subst same
      have filled : inflight'.peerInflightCount fetcher.peer ≤ maxBlocksInTransitPerPeer := by omega
      exact filled.trans (le_max_right _ _)
    · rw [others other same]
      exact le_max_left _ _
  · intro hashes found
    rw [asked hashes found]
    omega

end BlockFetcher

/-! ### The bound along every run -/

/-- The record is consistent and no peer has more than
`MAX_BLOCKS_IN_TRANSIT_PER_PEER` blocks in flight. -/
structure InflightBounded (inflight : InflightBlocks) : Prop where
  consistent : inflight.Consistent
  perPeer : ∀ peer, inflight.peerInflightCount peer ≤ maxBlocksInTransitPerPeer

/-- A getblocks message asks for some blocks, and no more than a peer may have
in flight. -/
def GetBlocks.Allowed (message : GetBlocks) : Prop :=
  message.hashes ≠ [] ∧ message.hashes.length ≤ maxBlocksInTransitPerPeer

/-- The loop of `find_blocks_to_fetch` keeps the record consistent, raises no
peer's count past the larger of its count and `MAX_BLOCKS_IN_TRANSIT_PER_PEER`,
and sends only allowed messages.  The induction is on the peers fetched from. -/
theorem fetchFromPeers_counted {shared : SyncSharedState} {sharedBest : ScoredView}
    {blockStatusMap : H256 → Option Nat} {now : Nat} {tipHeader : Header} {totalDifficulty : Nat} :
    ∀ (fetching : List PeerIndex) {peers peers' : Peers} {inflight inflight' : InflightBlocks}
      {sent : List GetBlocks}, inflight.Consistent →
      fetchFromPeers shared sharedBest blockStatusMap now tipHeader totalDifficulty fetching peers inflight =
        .ok (peers', inflight', sent) →
      inflight'.Consistent ∧
        (∀ other, inflight'.peerInflightCount other ≤
          max (inflight.peerInflightCount other) maxBlocksInTransitPerPeer) ∧
        ∀ message ∈ sent, message.Allowed
  | [], _, _, _, _, _, consistent, ran => by
      cases ran
      exact ⟨consistent, fun _ => le_max_left _ _, fun _ member => nomatch member⟩
  | peer :: rest, peers, peers', inflight, inflight', sent, consistent, ran => by
      obtain ⟨⟨peersFetched, inflightFetched, fetched⟩, fetchRan, ran⟩ := Except.bind_eq_ok.mp ran
      obtain ⟨⟨peersRest, inflightRest, later⟩, restRan, ran⟩ := Except.bind_eq_ok.mp ran
      cases Except.pure_eq_ok.mp ran
      obtain ⟨fetchedConsistent, counts, asked⟩ := BlockFetcher.fetch_counted consistent fetchRan
      obtain ⟨restConsistent, restCounts, laterAllowed⟩ :=
        fetchFromPeers_counted rest fetchedConsistent restRan
      refine ⟨restConsistent, fun other => ?_, ?_⟩
      · calc _ ≤ max (inflightFetched.peerInflightCount other) maxBlocksInTransitPerPeer :=
              restCounts other
          _ ≤ max (inflight.peerInflightCount other) maxBlocksInTransitPerPeer :=
              max_le (counts other) (le_max_right _ _)
      intro message member
      rcases List.mem_append.mp member with now | later
      · -- a fetch is sent only when it asks for something
        cases fetched with
        | none => cases now
        | some fetch =>
            dsimp only at now
            split at now
            · cases now
            · rename_i nonempty
              rw [List.mem_singleton.mp now]
              exact ⟨fun empty => nonempty (List.isEmpty_iff.mpr empty), asked fetch rfl⟩
      · exact laterAllowed message later

/-- Every event of the block download keeps the record consistent and sends
only allowed messages; it raises no peer's count past the larger of its count
and `MAX_BLOCKS_IN_TRANSIT_PER_PEER`, but for the one block the relayer's ask
of the peer records. -/
theorem BlockDownload.step_counted {download next : BlockDownload} {now : Nat}
    {event : BlockDownload.Event} {sent : List GetBlocks} (consistent : download.inflight.Consistent)
    (stepped : download.step now event = .ok (next, sent)) :
    next.inflight.Consistent ∧
      (∀ peer, next.inflight.peerInflightCount peer ≤
        max (download.inflight.peerInflightCount peer) maxBlocksInTransitPerPeer +
          if event.isRelayerAsk peer then 1 else 0) ∧
      ∀ message ∈ sent, message.Allowed := by
  cases event with
  | findBlocksToFetch shared sharedBest blockStatusMap tipHeader totalDifficulty =>
      obtain ⟨⟨peers', inflight', sent'⟩, ran, rest⟩ := Except.bind_eq_ok.mp stepped
      cases Except.pure_eq_ok.mp rest
      obtain ⟨consistent', counts, allowed⟩ := fetchFromPeers_counted _ (consistent.prune now) ran
      refine ⟨consistent', fun peer => (counts peer).trans ?_, allowed⟩
      exact max_le_max_right _ (InflightBlocks.peerInflightCount_prune_le now peer)
  | newBlockReceived hash =>
      cases Except.pure_eq_ok.mp stepped
      exact ⟨consistent.removeByBlock hash, fun peer =>
        (InflightBlocks.peerInflightCount_removeByBlock_le hash peer).trans (le_max_left _ _),
        fun _ member => nomatch member⟩
  | disconnected peer =>
      cases Except.pure_eq_ok.mp stepped
      exact ⟨consistent.removeByPeer peer, fun other =>
        (InflightBlocks.peerInflightCount_removeByPeer_le peer other).trans (le_max_left _ _),
        fun _ member => nomatch member⟩
  | getBlockTransactions asked hash =>
      cases Except.pure_eq_ok.mp stepped
      refine ⟨consistent.insert now asked hash, fun peer => ?_, fun _ member => nomatch member⟩
      by_cases same : peer = asked
      · -- the relayer's insert does not look at the peer's count
        subst same
        have grown := @InflightBlocks.peerInflightCount_insert_le download.inflight now peer hash
        have once : (if (download.inflight.insert now peer hash).2 then 1 else 0) ≤ 1 := by
          split <;> omega
        simp only [BlockDownload.Event.isRelayerAsk, beq_self_eq_true, if_true]
        omega
      · rw [InflightBlocks.peerInflightCount_insert_of_ne same]
        exact le_add_right (le_max_left _ _)

theorem BlockDownload.run_sends_allowed {peers : Peers}
    {events : List (Nat × BlockDownload.Event)} {final : BlockDownload}
    {sent : List (Nat × GetBlocks)}
    (ran : BlockDownload.run ⟨peers, InflightBlocks.default⟩ events = .ok (final, sent)) :
    final.inflight.Consistent ∧ ∀ time message, (time, message) ∈ sent →
      message.hashes ≠ [] ∧ message.hashes.length ≤ maxBlocksInTransitPerPeer := by
  obtain ⟨consistent, allowed⟩ := TimedRun.run_safe
    (fun _ _ _ _ _ holds stepped => (BlockDownload.step_counted holds stepped).1)
    (fun _ _ _ _ _ holds stepped => (BlockDownload.step_counted holds stepped).2.2)
    InflightBlocks.default_consistent ran
  exact ⟨consistent, fun time message member => allowed (time, message) member⟩

/-- Along every run of the block download from the empty in-flight record, the
relayer's asks included, the record stays consistent and every getblocks
message sent asks for at least one block and at most
`MAX_BLOCKS_IN_TRANSIT_PER_PEER`; a peer has more blocks in flight than that
bound by no more than the relayer's asks of it. -/
theorem relayed_inflight_bounded {peers : Peers} {events : List (Nat × BlockDownload.Event)}
    {final : BlockDownload} {sent : List (Nat × GetBlocks)}
    (ran : BlockDownload.run ⟨peers, InflightBlocks.default⟩ events = .ok (final, sent)) :
    final.inflight.Consistent ∧
      (∀ peer, final.inflight.peerInflightCount peer ≤
        maxBlocksInTransitPerPeer + events.countP fun entry => entry.2.isRelayerAsk peer) ∧
      ∀ time message, (time, message) ∈ sent →
        message.hashes ≠ [] ∧ message.hashes.length ≤ maxBlocksInTransitPerPeer := by
  obtain ⟨consistent, allowed⟩ := BlockDownload.run_sends_allowed ran
  refine ⟨consistent, fun peer => ?_, allowed⟩
  -- the budget of the peer grows by one at each of the relayer's asks of it
  have counted := @TimedRun.run_countP_invariant _ _ _ _ BlockDownload.step
    (fun budget download => download.inflight.Consistent ∧
      download.inflight.peerInflightCount peer ≤ maxBlocksInTransitPerPeer + budget)
    (fun event => event.isRelayerAsk peer)
    (fun budget _ _ _ _ _ holds stepped => by
      obtain ⟨consistent', counts, -⟩ := BlockDownload.step_counted holds.1 stepped
      refine ⟨consistent', (counts peer).trans ?_⟩
      have := max_le holds.2 (Nat.le_add_right maxBlocksInTransitPerPeer budget)
      omega)
    events 0 _ final sent ⟨InflightBlocks.default_consistent, Nat.zero_le _⟩ ran
  rw [Nat.zero_add] at counted
  exact counted.2

/-- Seventeen compact blocks the relayer takes from one peer leave it with one
block in flight more than a fetch would ever ask of it. -/
theorem relayerAsks_pass_limit :
    ∃ final, BlockDownload.run ⟨⟨[]⟩, InflightBlocks.default⟩
        ((List.range 17).map fun index => (0, .getBlockTransactions 7 ⟨index⟩)) = .ok (final, []) ∧
      maxBlocksInTransitPerPeer < final.inflight.peerInflightCount 7 ∧
      final.inflight.peerInflightCount 7 ≤ maxBlocksInTransitPerPeer +
        ((List.range 17).map fun index => ((0 : Nat), BlockDownload.Event.getBlockTransactions 7 ⟨index⟩)).countP
          fun entry => entry.2.isRelayerAsk 7 := by
  have computed : (fun result : BlockDownload × List (Nat × GetBlocks) =>
      (result.1.inflight.peerInflightCount 7, result.2)) <$>
        BlockDownload.run ⟨⟨[]⟩, InflightBlocks.default⟩
          ((List.range 17).map fun index => (0, .getBlockTransactions 7 ⟨index⟩)) =
      .ok (17, []) := by
    decide +kernel
  obtain ⟨⟨final, sent⟩, ran, counted⟩ := Except.map_eq_ok.mp computed
  change (final.inflight.peerInflightCount 7, sent) = (17, []) at counted
  obtain ⟨seventeen, rfl⟩ := Prod.mk.inj counted
  refine ⟨final, ran, ?_, (relayed_inflight_bounded ran).2.1 7⟩
  rw [seventeen]
  decide

/-- Along every run of the synchronizer's block download from the empty
in-flight record, the record stays consistent, no peer has more than
`MAX_BLOCKS_IN_TRANSIT_PER_PEER` blocks in flight, and every getblocks message
sent asks for at least one block and at most that many. -/
theorem download_inflight_bounded {peers : Peers} {events : List (Nat × BlockDownload.Event)}
    {final : BlockDownload} {sent : List (Nat × GetBlocks)}
    (synchronizerOnly : ∀ time peer hash, (time, .getBlockTransactions peer hash) ∉ events)
    (ran : BlockDownload.run ⟨peers, InflightBlocks.default⟩ events = .ok (final, sent)) :
    final.inflight.Consistent ∧
      (∀ peer, final.inflight.peerInflightCount peer ≤ maxBlocksInTransitPerPeer) ∧
      ∀ time message, (time, message) ∈ sent →
        message.hashes ≠ [] ∧ message.hashes.length ≤ maxBlocksInTransitPerPeer := by
  have empty : InflightBounded InflightBlocks.default :=
    ⟨InflightBlocks.default_consistent, fun _ => Nat.zero_le _⟩
  have bounded : InflightBounded final.inflight := by
    refine @TimedRun.run_invariant _ _ _ _ BlockDownload.step
      (fun download => InflightBounded download.inflight) events
      (fun _ now event _ _ member holds stepped => ?_) _ _ _ empty ran
    obtain ⟨consistent', counts, -⟩ := BlockDownload.step_counted holds.consistent stepped
    refine ⟨consistent', fun peer => ?_⟩
    have synchronizer : event.isRelayerAsk peer = false := by
      cases event with
      | getBlockTransactions asked hash => exact absurd member (synchronizerOnly now asked hash)
      | _ => rfl
    have := counts peer
    rw [synchronizer, if_neg Bool.false_ne_true, Nat.add_zero] at this
    exact this.trans (max_le (holds.perPeer peer) le_rfl)
  exact ⟨bounded.consistent, bounded.perPeer, (BlockDownload.run_sends_allowed ran).2⟩

/-- One round of the download with the peer of `samplePeers`, our tip on the
side branch: the peer is asked for its three blocks above the fork. -/
theorem sideTip_round_bounded :
    ∃ final, BlockDownload.run ⟨BlockFetcher.samplePeers, InflightBlocks.default⟩
        [(0, .findBlocksToFetch forkTree ⟨forkView 11, 60, 0⟩ (fun _ => some BlockStatus.validMask)
          (sideHeader 3) 10)] = .ok (final, [(0, ⟨7, [⟨102⟩, ⟨103⟩, ⟨104⟩]⟩)]) ∧
      final.inflight.Consistent ∧
      (∀ peer, final.inflight.peerInflightCount peer ≤ maxBlocksInTransitPerPeer) ∧
      ∀ time message, (time, message) ∈ [(0, (⟨7, [⟨102⟩, ⟨103⟩, ⟨104⟩]⟩ : GetBlocks))] →
        message.hashes ≠ [] ∧ message.hashes.length ≤ maxBlocksInTransitPerPeer := by
  have computed : (fun result : BlockDownload × List (Nat × GetBlocks) => result.2) <$>
      BlockDownload.run ⟨BlockFetcher.samplePeers, InflightBlocks.default⟩
        [(0, .findBlocksToFetch forkTree ⟨forkView 11, 60, 0⟩ (fun _ => some BlockStatus.validMask)
          (sideHeader 3) 10)] =
      .ok [(0, ⟨7, [⟨102⟩, ⟨103⟩, ⟨104⟩]⟩)] := by
    decide +kernel
  obtain ⟨⟨final, sent⟩, ran, answered⟩ := Except.map_eq_ok.mp computed
  change sent = _ at answered
  subst answered
  exact ⟨final, ran, download_inflight_bounded (by simp) ran⟩

end Ckb

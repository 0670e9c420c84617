import Ckb.Sync.SkipList
import Ckb.Sync.InflightBlocks
import Ckb.Lib.TimedRun

/-!
# The synchronizer's peers

What `Synchronizer` (`sync/src/synchronizer/mod.rs`) keeps of each peer in
`Peers` (`sync/src/types.rs`): whether headers are being synced from it, the
timeouts of that sync and of the chain-sync check, its best known header, and
the two counters of `SyncSharedState` that go with them, `n_sync_started` and
`n_protected_outbound_peers`.  The handlers that change them are events of one
machine: a peer connects or disconnects, the timers fire `start_sync_headers`
and `eviction`, and a headers message comes in.  `send_getheaders_to_peer`
drops a request for the header it was asked for within `GET_HEADERS_TIMEOUT`,
through the cache `pending_get_headers`.

A step returns what the node does: the getheaders messages it actually sends
and the peers it disconnects.  The clock `unix_time_as_millis()` (and
`Instant::now()` of the cache) is the time of the event; what the chain state
says, the tip and whether the node is in initial block download, comes with
the timer events.  A hash map is a list of entries, iterated in list order.
-/

namespace Ckb

def maxOutboundPeersToProtectFromDisconnect : Nat := 4

/-- `CHAIN_SYNC_TIMEOUT`, in milliseconds, as the other durations. -/
def chainSyncTimeout : Nat := 12 * 60 * 1000

def protectStopSyncTime : Nat := 5 * 60 * 1000

def evictionHeadersResponseTime : Nat := 120 * 1000

def headersDownloadTimeoutBase : Nat := 6 * 60 * 1000

def headersDownloadTimeoutPerHeader : Nat := 1

def powSpace : Nat := 10000

def maxHeadersLen : Nat := 2000

def getHeadersCacheSize : Nat := 10000

def getHeadersTimeout : Nat := 15 * 1000

/-- A `HeaderView` with the totals of its chain, which the peers' bookkeeping
compares; the skip pointer rides along unread. -/
structure ScoredView extends HeaderView where
  totalDifficulty : Nat
  totalUnclesCount : Nat
  deriving DecidableEq, Repr

/-- `a >= b` on `Option`, where `None` is below every `Some`. -/
def optionGe : Option Nat → Option Nat → Bool
  | _, none => true
  | none, some _ => false
  | some a, some b => decide (b ≤ a)

structure ChainSyncState where
  timeout : Nat
  workHeader : Option Header
  totalDifficulty : Option Nat
  sentGetheaders : Bool
  notSyncUntil : Option Nat
  protect : Bool
  deriving DecidableEq, Repr

def ChainSyncState.default : ChainSyncState := ⟨0, none, none, false, none, false⟩

/-- `PeerState`, without the transaction asks of the relayer and the
`last_block_announcement` nothing writes. -/
structure PeerState where
  syncStarted : Bool
  headersSyncTimeout : Option Nat
  isOutbound : Bool
  disconnect : Bool
  chainSync : ChainSyncState
  bestKnownHeader : Option ScoredView
  lastCommonHeader : Option Header
  deriving DecidableEq, Repr

namespace PeerState

def new (isOutbound : Bool) (chainSync : ChainSyncState) (headersSyncTimeout : Option Nat) :
    PeerState :=
  ⟨false, headersSyncTimeout, isOutbound, false, chainSync, none, none⟩

def canSync (state : PeerState) (now : Nat) : Bool :=
  !state.syncStarted && (state.chainSync.notSyncUntil.map fun ts => decide (ts < now)).getD true

def startSync (state : PeerState) (headersSyncTimeout : Nat) : PeerState :=
  { state with
    syncStarted := true
    chainSync := { state.chainSync with notSyncUntil := none }
    headersSyncTimeout := some headersSyncTimeout }

def stopSync (state : PeerState) (notSyncUntil : Nat) : PeerState :=
  { state with
    syncStarted := false
    chainSync := { state.chainSync with notSyncUntil := some notSyncUntil }
    headersSyncTimeout := none }

variable (state : PeerState) (timeout : Nat)

@[simp] theorem startSync_syncStarted : (state.startSync timeout).syncStarted = true := rfl

@[simp] theorem startSync_headersSyncTimeout :
    (state.startSync timeout).headersSyncTimeout = some timeout := rfl

@[simp] theorem startSync_chainSync :
    (state.startSync timeout).chainSync = { state.chainSync with notSyncUntil := none } := rfl

@[simp] theorem stopSync_syncStarted : (state.stopSync timeout).syncStarted = false := rfl

@[simp] theorem stopSync_headersSyncTimeout : (state.stopSync timeout).headersSyncTimeout = none :=
  rfl

@[simp] theorem stopSync_chainSync :
    (state.stopSync timeout).chainSync = { state.chainSync with notSyncUntil := some timeout } := rfl

end PeerState

structure Peers where
  state : List (PeerIndex × PeerState)
  deriving DecidableEq, Repr

namespace Peers

/-- `Peers::on_connected`: a known peer gets the new timeout and protection,
a new one a fresh state. -/
def onConnected (peers : Peers) (peer : PeerIndex) (headersSyncTimeout : Option Nat)
    (protect isOutbound : Bool) : Peers :=
  if LinkedMap.contains peers.state peer then
    ⟨LinkedMap.modify peers.state peer fun state =>
      { state with headersSyncTimeout, chainSync := { state.chainSync with protect } }⟩
  else
    ⟨(LinkedMap.insert peers.state peer
      (PeerState.new isOutbound { ChainSyncState.default with protect } headersSyncTimeout)).1⟩

def getBestKnownHeader (peers : Peers) (peer : PeerIndex) : Option ScoredView :=
  (LinkedMap.get? peers.state peer).bind PeerState.bestKnownHeader

def setBestKnownHeader (peers : Peers) (peer : PeerIndex) (view : ScoredView) : Peers :=
  ⟨LinkedMap.modify peers.state peer fun state => { state with bestKnownHeader := some view }⟩

def getLastCommonHeader (peers : Peers) (peer : PeerIndex) : Option Header :=
  (LinkedMap.get? peers.state peer).bind PeerState.lastCommonHeader

def setLastCommonHeader (peers : Peers) (peer : PeerIndex) (header : Header) : Peers :=
  ⟨LinkedMap.modify peers.state peer fun state => { state with lastCommonHeader := some header }⟩

/-- The order in which `new_header_received` and `insert_header_view` rank
views: more total difficulty, then the lower hash. -/
def isBetter (view other : ScoredView) : Bool :=
  decide (other.totalDifficulty < view.totalDifficulty) ||
    (view.totalDifficulty == other.totalDifficulty && decide (view.hash.value < other.hash.value))

/-- `Peers::new_header_received`: the view replaces the best known header
when it ranks above it. -/
def newHeaderReceived (peers : Peers) (peer : PeerIndex) (view : ScoredView) : Peers :=
  ⟨LinkedMap.modify peers.state peer fun state =>
    match state.bestKnownHeader with
    | some known => if isBetter view known then { state with bestKnownHeader := some view } else state
    | none => { state with bestKnownHeader := some view }⟩

end Peers

/-- What of `SyncSharedState` the peers' sync states live in: the peers, the
two counters, and the cache of getheaders requests with the time each was
sent. -/
structure PeerSync where
  peers : Peers
  nSyncStarted : Nat
  nProtectedOutboundPeers : Nat
  pendingGetHeaders : List ((PeerIndex × H256) × Nat)

namespace PeerSync

def new : PeerSync := ⟨⟨[]⟩, 0, 0, []⟩

/-- What the node does towards its peers. -/
inductive SyncAction where
  /-- A getheaders message from a locator of `header`. -/
  | getHeaders (peer : PeerIndex) (header : Header)
  /-- The disconnect `eviction` asks for. -/
  | evict (peer : PeerIndex)
  /-- The disconnect of an unprotected outbound peer after its headers in
  initial block download. -/
  | disconnect (peer : PeerIndex)
  deriving DecidableEq, Repr

/-- `send_getheaders_to_peer`, as far as the cache goes: a request for the
same header within `GET_HEADERS_TIMEOUT` of the last one is dropped (the
lookup refreshes its entry); any other is stamped and sent.  Whether it was
sent comes back. -/
def sendGetheadersToPeer (pending : List ((PeerIndex × H256) × Nat)) (now : Nat) (peer : PeerIndex)
    (header : Header) : List ((PeerIndex × H256) × Nat) × Bool :=
  match LinkedMap.get? pending (peer, header.hash) with
  | some lastTime =>
    let refreshed := (LinkedMap.insert pending (peer, header.hash) lastTime).1
    if now < lastTime + getHeadersTimeout then (refreshed, false)
    else ((LinkedMap.insertLru getHeadersCacheSize refreshed (peer, header.hash) now).1, true)
  | none => ((LinkedMap.insertLru getHeadersCacheSize pending (peer, header.hash) now).1, true)

/-- `Synchronizer::on_connected`: an outbound peer is protected while fewer
than four were. -/
def onConnected (sync : PeerSync) (peer : PeerIndex) (isOutbound : Bool) : PeerSync :=
  let protectOutbound := isOutbound &&
    decide (sync.nProtectedOutboundPeers < maxOutboundPeersToProtectFromDisconnect)
  { sync with
    nProtectedOutboundPeers :=
      if protectOutbound then sync.nProtectedOutboundPeers + 1 else sync.nProtectedOutboundPeers
    peers := sync.peers.onConnected peer none protectOutbound isOutbound }

/-- `predict_headers_sync_time`: a base timeout and a millisecond for each
header expected since `header`, at most `MAX_HEADERS_LEN` of them. -/
def predictHeadersSyncTime (now : Nat) (header : Header) : Nat :=
  let expectedHeaders := min maxHeadersLen ((now - header.timestamp) / powSpace)
  now + headersDownloadTimeoutBase + headersDownloadTimeoutPerHeader * expectedHeaders

/-- The header `start_sync_headers` asks from: the tip when it ranks above the
shared best header, else that header. -/
def syncTip (tipHeader : Header) (totalDifficulty : Nat) (bestKnown : ScoredView) : Header :=
  if bestKnown.totalDifficulty < totalDifficulty ∨
      (totalDifficulty = bestKnown.totalDifficulty ∧ tipHeader.hash.value < bestKnown.hash.value)
  then tipHeader else bestKnown.inner

/-- The block of `start_sync_headers` that starts a peer not yet syncing,
with a timeout for its headers from `tip`. -/
def startPeer (sync : PeerSync) (now : Nat) (tip : Header) (peer : PeerIndex) : PeerSync :=
  match LinkedMap.get? sync.peers.state peer with
  | some state =>
    if !state.syncStarted then
      { sync with
        peers := ⟨LinkedMap.modify sync.peers.state peer fun state =>
          state.startSync (predictHeadersSyncTime now tip)⟩
        nSyncStarted := sync.nSyncStarted + 1 }
    else sync
  | none => sync

/-- The loop of `start_sync_headers` over the peers that can sync: in initial
block download it stops once a sync is under way; a peer not yet syncing
starts, and every peer is sent getheaders from `tip`. -/
def startSyncLoop (now : Nat) (ibd : Bool) (tip : Header) :
    List PeerIndex → PeerSync → PeerSync × List SyncAction
  | [], sync => (sync, [])
  | peer :: rest, sync =>
    if ibd && sync.nSyncStarted != 0 then (sync, [])
    else
      let sync := startPeer sync now tip peer
      let (pending, sent) := sendGetheadersToPeer sync.pendingGetHeaders now peer tip
      let (sync, actions) := startSyncLoop now ibd tip rest { sync with pendingGetHeaders := pending }
      (sync, if sent then .getHeaders peer tip :: actions else actions)

def startSyncHeaders (sync : PeerSync) (now : Nat) (ibd : Bool) (tip : Header) :
    PeerSync × List SyncAction :=
  startSyncLoop now ibd tip ((sync.peers.state.filter fun entry => entry.2.canSync now).map Prod.fst)
    sync

/-- What `eviction` does with one peer besides changing its state. -/
inductive EvictionEffect where
  | none
  | evict
  | stopSync
  | getHeaders (header : Header)
  deriving DecidableEq, Repr

/-- The chain-sync check of an outbound peer: a peer whose best known header
reaches our total difficulty is cleared; one found behind, for the first time
or after catching up to the last check, gets a timeout from our tip; one still
behind at its timeout is sent getheaders from the tip of that check and a
shorter timeout, and at that one it is disconnected, or stops syncing if it
is protected. -/
def evictOutbound (now : Nat) (tipHeader : Header) (localTotalDifficulty : Nat)
    (state : PeerState) : Except String (PeerState × EvictionEffect) :=
  let chainSync := state.chainSync
  if !state.isOutbound then pure (state, .none)
  else if (state.bestKnownHeader.map fun view =>
      decide (localTotalDifficulty ≤ view.totalDifficulty)).getD false then
    if chainSync.timeout != 0 then
      pure ({ state with chainSync := { chainSync with
        timeout := 0, workHeader := none, totalDifficulty := none, sentGetheaders := false } },
        .none)
    else pure (state, .none)
  else if chainSync.timeout == 0 || (state.bestKnownHeader.isSome &&
      optionGe (state.bestKnownHeader.map ScoredView.totalDifficulty) chainSync.totalDifficulty) then
    pure ({ state with chainSync := { chainSync with
      timeout := now + chainSyncTimeout, workHeader := some tipHeader,
      totalDifficulty := some localTotalDifficulty, sentGetheaders := false } }, .none)
  else if 0 < chainSync.timeout && chainSync.timeout < now then
    if chainSync.sentGetheaders then
      if chainSync.protect then
        if state.syncStarted then pure (state.stopSync (now + protectStopSyncTime), .stopSync)
        else pure (state, .none)
      else pure ({ state with disconnect := true }, .evict)
    else
      match chainSync.workHeader with
      | none => .error "work_header be assigned"
      | some workHeader =>
        pure ({ state with chainSync := { chainSync with
          sentGetheaders := true, timeout := now + evictionHeadersResponseTime } },
          .getHeaders workHeader)
  else pure (state, .none)

/-- One peer of the loop of `eviction`: a headers sync past its timeout in
initial block download disconnects the peer, and the chain-sync check follows
otherwise. -/
def evictPeer (now : Nat) (ibd : Bool) (tipHeader : Header) (localTotalDifficulty : Nat)
    (state : PeerState) : Except String (PeerState × EvictionEffect) :=
  match state.headersSyncTimeout with
  | some timeout =>
    if timeout < now && ibd && !state.disconnect then pure ({ state with disconnect := true }, .evict)
    else evictOutbound now tipHeader localTotalDifficulty state
  | none => evictOutbound now tipHeader localTotalDifficulty state

/-- `fetch_sub(1)` on a `usize`, which wraps below zero. -/
def wrappingPred (n : Nat) : Nat := if n = 0 then u64Bound - 1 else n - 1

/-- What `eviction` does with the effect on one peer besides its state: the
counter a stopped sync gives back, the getheaders sent, the peer to
disconnect. -/
def applyEffect (sync : PeerSync) (now : Nat) (peer : PeerIndex) :
    EvictionEffect → PeerSync × List SyncAction × List PeerIndex
  | .none => (sync, [], [])
  | .evict => (sync, [], [peer])
  | .stopSync => ({ sync with nSyncStarted := wrappingPred sync.nSyncStarted }, [], [])
  | .getHeaders header =>
    let (pending, sent) := sendGetheadersToPeer sync.pendingGetHeaders now peer header
    ({ sync with pendingGetHeaders := pending },
      if sent then [SyncAction.getHeaders peer header] else [], [])

/-- The loop of `eviction` over every peer: the states it leaves, the
counters and the cache, the getheaders sent, and the peers to disconnect. -/
def evictionLoop (now : Nat) (ibd : Bool) (tipHeader : Header) (localTotalDifficulty : Nat) :
    List (PeerIndex × PeerState) → PeerSync →
      Except String (List (PeerIndex × PeerState) × PeerSync × List SyncAction × List PeerIndex)
  | [], sync => pure ([], sync, [], [])
  | (peer, state) :: rest, sync => do
    let (state, effect) ← evictPeer now ibd tipHeader localTotalDifficulty state
    let (sync, sent, evicted) := applyEffect sync now peer effect
    let (entries, sync, laterSent, laterEvicted) ←
      evictionLoop now ibd tipHeader localTotalDifficulty rest sync
    pure ((peer, state) :: entries, sync, sent ++ laterSent, evicted ++ laterEvicted)

/-- `Synchronizer::eviction`: the loop, then the disconnects it collected. -/
def eviction (sync : PeerSync) (now : Nat) (ibd : Bool) (tipHeader : Header)
    (localTotalDifficulty : Nat) : Except String (PeerSync × List SyncAction) := do
  let (entries, sync', sent, evicted) ←
    evictionLoop now ibd tipHeader localTotalDifficulty sync.peers.state sync
  pure ({ sync' with peers := ⟨entries⟩ }, sent ++ evicted.map SyncAction.evict)

/-- `SyncProtocol.disconnected`: the peer's state goes, and the counter of
syncing peers with it, which panics if it was already zero. -/
def disconnected (sync : PeerSync) (peer : PeerIndex) : Except String PeerSync :=
  let (entries, removed) := LinkedMap.remove sync.peers.state peer
  let sync := { sync with peers := ⟨entries⟩ }
  match removed with
  | some state =>
    if state.syncStarted then
      if sync.nSyncStarted = 0 then .error "Synchronizer n_sync overflow"
      else pure { sync with nSyncStarted := sync.nSyncStarted - 1 }
    else pure sync
  | none => pure sync

/-- The empty headers message of `HeadersProcess::execute`: the peer is taken
to know the shared best header, and its headers sync has no timeout any
more. -/
def headersSynchronized (sync : PeerSync) (peer : PeerIndex) (sharedBest : ScoredView) :
    Except String PeerSync :=
  let peers := sync.peers.setBestKnownHeader peer sharedBest
  match LinkedMap.get? peers.state peer with
  | none => .error "Peer must exists"
  | some _ =>
    pure { sync with
      peers := ⟨LinkedMap.modify peers.state peer fun state => { state with headersSyncTimeout := none }⟩ }

/-- The end of `HeadersProcess::execute` for a message of `count` headers, the
last of them `last`: a full message of `MAX_HEADERS_LEN` goes on with
`send_getheaders_to_peer` from `last`, the request `eviction` sends too; in
initial block download an unprotected outbound peer that sent fewer is
disconnected. -/
def headersReceived (sync : PeerSync) (now : Nat) (peer : PeerIndex) (count : Nat) (last : Header)
    (ibd : Bool) : PeerSync × List SyncAction :=
  let (sync, sent, _) :=
    sync.applyEffect now peer (if count = maxHeadersLen then .getHeaders last else .none)
  let (isOutbound, isProtected) := ((LinkedMap.get? sync.peers.state peer).map fun state =>
    (state.isOutbound, state.chainSync.protect)).getD (false, false)
  (sync, sent ++
    if ibd && count != maxHeadersLen && (isOutbound && !isProtected) then [.disconnect peer] else [])

/-- The events of the machine. -/
inductive SyncEvent where
  | connected (peer : PeerIndex) (isOutbound : Bool)
  | disconnected (peer : PeerIndex)
  | startSyncHeaders (ibd : Bool) (tip : Header)
  | eviction (ibd : Bool) (tipHeader : Header) (localTotalDifficulty : Nat)
  | headersSynchronized (peer : PeerIndex) (sharedBest : ScoredView)
  | headerAccepted (peer : PeerIndex) (view : ScoredView)
  | headersReceived (peer : PeerIndex) (count : Nat) (last : Header) (ibd : Bool)
  deriving DecidableEq, Repr

def step (sync : PeerSync) (now : Nat) : SyncEvent → Except String (PeerSync × List SyncAction)
  | .connected peer isOutbound => pure (sync.onConnected peer isOutbound, [])
  | .disconnected peer => do pure (← sync.disconnected peer, [])
  | .startSyncHeaders ibd tip => pure (sync.startSyncHeaders now ibd tip)
  | .eviction ibd tipHeader localTotalDifficulty => sync.eviction now ibd tipHeader localTotalDifficulty
  | .headersSynchronized peer sharedBest => do pure (← sync.headersSynchronized peer sharedBest, [])
  | .headerAccepted peer view => pure ({ sync with peers := sync.peers.newHeaderReceived peer view }, [])
  | .headersReceived peer count last ibd => pure (sync.headersReceived now peer count last ibd)

/-- A run of events, each at the time it happens: the state reached and the
actions taken, each with its time. -/
def run (sync : PeerSync) (events : List (Nat × SyncEvent)) :
    Except String (PeerSync × List (Nat × SyncAction)) :=
  TimedRun.run step sync events

end PeerSync

end Ckb

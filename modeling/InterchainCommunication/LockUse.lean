import InterchainCommunication.EventLog
import InterchainCommunication.ScopedLocks
import InterchainCommunication.SimulationModel

set_option autoImplicit false

/-!
# Which locks the calls take

Every function stands here with its locked sections and its accesses to what
threads share, and nothing else. A branch that depends on other data goes either
way. Nested calls are nested sections, and a `return` inside a section leaves out
the rest of it. A wait gives its mutex up and takes it again, so it is the place
between two sections. Atomic variables and joins take no mutex and are left out.
-/
namespace InterchainCommunication.LockUse
open StringText ScopedLocks EventLog SimulationModel

inductive Queue
  | inbox (n : ℕ)
  | pendingPackets (r : ℕ)
  | pendingAcks (r : ℕ)
  deriving DecidableEq

/-- The files of the detailed logger, the last two for one node or relayer each. -/
inductive Stream
  | transactions
  | ibcEvents
  | networkDrops
  | node (key : Bytes)
  | relayer (key : Bytes)
  deriving DecidableEq

/-- The mutexes. Those of the chains and of the bus are one each for the whole process. -/
inductive Lock
  | chainMutex
  | busMutex
  | channelsMtx (c : ℕ)
  | routerMutex (c : ℕ)
  | channelMtx (c : ℕ) (key : Bytes)
  | queueMutex (q : Queue)
  | relayerMtx (r : ℕ)
  | endpointsMtx
  | tasksMtx
  | logMutex
  | metricsMutex
  | streamMutex (s : Stream)
  | nodeLogsMutex
  | relayerLogsMutex
  | engineMutex (e : ℕ)
  deriving DecidableEq

inductive Datum
  | ledger (c : ℕ)
  | nodeIds (c : ℕ)
  | mempool (c : ℕ)
  | channels (c : ℕ)
  | bindings (c : ℕ)
  | channelState (c : ℕ) (key : Bytes)
  | subs
  | items (q : Queue)
  | chainAddr (r : ℕ)
  | routeDrop (r : ℕ)
  | relayerRng (r : ℕ)
  | endpoints
  | tasks
  | params
  | transportRng
  | level
  | console
  | metricsFile
  | streamFile (s : Stream)
  | nodeStateLogs
  | relayerStateLogs
  | enabledFlag (category : LogCategory)
  | votes (e : ℕ)
  deriving DecidableEq

abbrev Use := Code Lock Datum

def read (d : Datum) : Use := .touch d false .done

def write (d : Datum) : Use := .touch d true .done

def within (lock : Lock) (inside : Use) : Use := .locked lock inside .done

def maybe (c : Use) : Use := .either c .done

/-- A section that looks at a datum and may then change it. -/
def tested (lock : Lock) (d : Datum) : Use := within lock (Code.all [read d, maybe (write d)])

/-- The tests of a wait before its last one. -/
def waits (sleeps : ℕ) (lock : Lock) (d : Datum) : Use := Code.all (List.replicate sleeps (within lock (read d)))

namespace Logger

/-- One of `trace`, `debug`, `info`, `warn` and `error`. -/
def log : Use := Code.all [read .level, maybe (within .logMutex (write .console))]

def setLevel : Use := within .logMutex (write .level)

end Logger
open Logger (log)

def incCounter : Use := within .metricsMutex (write .metricsFile)

namespace LogStream

def write (s : Stream) : Use := within (.streamMutex s) (LockUse.write (.streamFile s))

def flush (s : Stream) : Use := within (.streamMutex s) (LockUse.write (.streamFile s))

end LogStream

namespace DetailedLogger

/-- The calls that write to a file of the constructor. Callers make them if they have a logger. -/
def logTo (category : LogCategory) (s : Stream) : Use :=
  maybe (Code.all [read (.enabledFlag category), maybe (LogStream.write s)])

def logTransactionEvent : Use := logTo .transactions .transactions

def logIBCEvent : Use := logTo .ibcEvents .ibcEvents

def logNetworkDrop : Use := logTo .networkDrops .networkDrops

def getNodeStateLog : Use := tested .nodeLogsMutex .nodeStateLogs

def getRelayerStateLog : Use := tested .relayerLogsMutex .relayerStateLogs

def logNodeState (key : Bytes) : Use :=
  Code.all [read (.enabledFlag .nodeState), maybe (Code.all [getNodeStateLog, maybe (LogStream.write (.node key))])]

def logRelayerState (key : Bytes) : Use :=
  maybe (Code.all [read (.enabledFlag .relayerState),
    maybe (Code.all [getRelayerStateLog, maybe (LogStream.write (.relayer key))])])

def enableCategory (category : LogCategory) : Use := write (.enabledFlag category)

def flushAll (nodes relayers : List Bytes) : Use :=
  Code.all [LogStream.flush .transactions, LogStream.flush .ibcEvents, LogStream.flush .networkDrops,
    within .nodeLogsMutex (Code.all [read .nodeStateLogs, Code.all (nodes.map fun key => LogStream.flush (.node key))]),
    within .relayerLogsMutex
      (Code.all [read .relayerStateLogs, Code.all (relayers.map fun key => LogStream.flush (.relayer key))])]

end DetailedLogger
open DetailedLogger

namespace ConcurrentQueue

def push (q : Queue) : Use := tested (.queueMutex q) (.items q)

def tryPop (q : Queue) : Use := tested (.queueMutex q) (.items q)

def waitPop (sleeps : ℕ) (q : Queue) : Use :=
  Code.all [waits sleeps (.queueMutex q) (.items q), tested (.queueMutex q) (.items q)]

def close (q : Queue) : Use := within (.queueMutex q) (write (.items q))

end ConcurrentQueue

namespace EventBus

def subscribe : Use := within .busMutex (write .subs)

def unsubscribe : Use := tested .busMutex .subs

/-- The two handlers of a relayer: a text that is not read, a packet of the other type, a push. -/
def onSendEvent (q : Queue) : Use :=
  .either (Code.all [log, incCounter]) (maybe (Code.all [ConcurrentQueue.push q, log, incCounter]))

def handle : Handler → Use
  | .packetSend r => onSendEvent (.pendingPackets r)
  | .ackSend r => onSendEvent (.pendingAcks r)

/-- The handlers run under the mutex of the bus. Nobody but the relayers subscribes. -/
def publish (handlers : List Handler) : Use :=
  within .busMutex (Code.all [read .subs, Code.all (handlers.map handle)])

end EventBus
open EventBus (publish)

namespace IBCRouter

def bind (c : ℕ) : Use := tested (.routerMutex c) (.bindings c)

def unbind (c : ℕ) : Use := tested (.routerMutex c) (.bindings c)

def isBound (c : ℕ) : Use := within (.routerMutex c) (read (.bindings c))

end IBCRouter

namespace IBCChannel

def «open» (c : ℕ) (key : Bytes) : Use := tested (.channelMtx c key) (.channelState c key)

def makePacket (c : ℕ) (key : Bytes) : Use := tested (.channelMtx c key) (.channelState c key)

def acceptPacket (c : ℕ) (key : Bytes) : Use := tested (.channelMtx c key) (.channelState c key)

end IBCChannel

namespace Blockchain

def getOrCreateChannel (c : ℕ) : Use :=
  within (.channelsMtx c) (Code.all [read (.channels c), maybe (Code.all [write (.channels c), log])])

def openChannel (c : ℕ) (key : Bytes) : Use :=
  within .chainMutex (Code.all [IBCRouter.bind c,
    .either log (Code.all [getOrCreateChannel c, IBCChannel.open c key, log])])

def closeChannel (c : ℕ) : Use := within .chainMutex (Code.all [IBCRouter.unbind c, log])

def sendIBC (c : ℕ) (key : Bytes) (handlers : List Handler) : Use :=
  within .chainMutex (Code.all [getOrCreateChannel c, IBCChannel.open c key,
    maybe (Code.all [IBCChannel.makePacket c key,
      .either log (Code.all [publish handlers, incCounter, logIBCEvent])])])

def onIBCPacket (c : ℕ) (key : Bytes) (received acked : List Handler) : Use :=
  within .chainMutex (Code.all [getOrCreateChannel c, IBCChannel.open c key,
    maybe (Code.all [IBCChannel.acceptPacket c key,
      .either log (Code.all [publish received, incCounter, logIBCEvent, publish acked, log, logIBCEvent])])])

def onIBCAck (handlers : List Handler) : Use :=
  within .chainMutex (Code.all [publish handlers, incCounter, log, logIBCEvent])

def head (c : ℕ) : Use := within .chainMutex (read (.ledger c))

def appendBlock (c : ℕ) (handlers : List Handler) : Use :=
  within .chainMutex (Code.all [read (.ledger c),
    .either log (Code.all [write (.ledger c), publish handlers, incCounter, log])])

def registerNodeId (c : ℕ) : Use :=
  within .chainMutex (Code.all [read (.nodeIds c), maybe (Code.all [write (.nodeIds c), log])])

end Blockchain

namespace Mempool

def add (c : ℕ) : Use := write (.mempool c)

def drain (c : ℕ) : Use := write (.mempool c)

def size (c : ℕ) : Use := read (.mempool c)

end Mempool

namespace Transport

def registerEndpoint : Use := tested .endpointsMtx .endpoints

def unregisterEndpoint : Use := tested .endpointsMtx .endpoints

def setParams : Use := write .params

def send : Use :=
  Code.all [within .endpointsMtx (read .endpoints),
    maybe (Code.all [read .params, write .transportRng,
      .either logNetworkDrop (Code.all [read .params, within .tasksMtx (write .tasks)])])]

def waitForPendingDeliveries (sleeps : ℕ) : Use :=
  Code.all [waits sleeps .tasksMtx .tasks, within .tasksMtx (read .tasks)]

end Transport

namespace Node

def onBytes (n : ℕ) : Use := .either log (Code.all [ConcurrentQueue.push (.inbox n), maybe log])

def submitTransaction (c : ℕ) : Use :=
  Code.all [Mempool.add c, logTransactionEvent, Transport.send, incCounter]

/-- `head` returns a reference, and the height is read through it when the mutex is free again. -/
def snapshotState (c : ℕ) (key : Bytes) : Use :=
  maybe (Code.all [Blockchain.head c, Mempool.size c, read (.ledger c), logNodeState key])

/-- A malformed text, a number that is not read, a transaction. -/
def handleTransaction (c : ℕ) (key : Bytes) : Use :=
  .either log (maybe (Code.all [Mempool.add c, incCounter, log, logTransactionEvent, snapshotState c key]))

/-- A text that is not read, data, an acknowledgement. The snapshot may throw. -/
def handleIBC (c : ℕ) (key channel : Bytes) (received acked : List Handler) : Use :=
  .either (Code.all [log, incCounter])
    (Code.all [.either (Code.all [log, Blockchain.onIBCPacket c channel received acked, incCounter, log])
        (maybe (Code.all [log, Blockchain.onIBCAck received, incCounter, log])),
      snapshotState c key, maybe (Code.all [log, incCounter])])

def runLoop (n c : ℕ) (key channel : Bytes) (sleeps : ℕ) (received acked : List Handler) : Use :=
  Code.all [ConcurrentQueue.waitPop sleeps (.inbox n),
    maybe (.either (handleTransaction c key) (.either log (handleIBC c key channel received acked)))]

def stop (n : ℕ) : Use := Code.all [ConcurrentQueue.close (.inbox n), log]

end Node

/-- The loop body of a worker of the transport, for a task to node `n`. -/
def Transport.workerLoop (n sleeps : ℕ) : Use :=
  Code.all [waits sleeps .tasksMtx .tasks, tested .tasksMtx .tasks,
    .either (within .tasksMtx .done)
      (maybe (Code.all [within .tasksMtx (write .tasks), within .endpointsMtx (read .endpoints),
        maybe (Node.onBytes n), within .tasksMtx (write .tasks)]))]

namespace Relayer

def connectChainMailbox (r : ℕ) : Use := within (.relayerMtx r) (write (.chainAddr r))

def setDropOnRoute (r : ℕ) : Use := within (.relayerMtx r) (write (.routeDrop r))

/-- The rate of drops is read, and a number drawn, when the mutex is free again. -/
def relay (r : ℕ) : Use :=
  Code.all [within (.relayerMtx r) (read (.chainAddr r)),
    maybe (Code.all [read (.routeDrop r), write (.relayerRng r), maybe Transport.send])]

def relayPacket (r : ℕ) : Use := relay r

def relayAck (r : ℕ) : Use := relay r

def half (q : Queue) (relayed : Use) (key : Bytes) : Use :=
  Code.all [ConcurrentQueue.tryPop q,
    maybe (Code.all [log, relayed,
      .either (Code.all [incCounter, log, logIBCEvent, logRelayerState key])
        (Code.all [incCounter, log, logRelayerState key])])]

def runLoop (r : ℕ) (key : Bytes) : Use :=
  Code.all [half (.pendingPackets r) (relayPacket r) key, half (.pendingAcks r) (relayAck r) key]

def stop (r : ℕ) : Use :=
  Code.all [ConcurrentQueue.close (.pendingPackets r), ConcurrentQueue.close (.pendingAcks r), log]

end Relayer

namespace Consensus

/-- `propose` and `onRemoteBlock` of `PoW`, which may find no proof of work. -/
def work (e : ℕ) : Use :=
  within (.engineMutex e) (Code.all [incCounter, maybe (Code.all [write (.votes e), incCounter])])

/-- `propose` and `onRemoteBlock` of `PoS` and `PBFT`, with a quorum or without. -/
def vote (e : ℕ) : Use :=
  within (.engineMutex e) (Code.all [incCounter, write (.votes e), maybe incCounter])

/-- `PoW` reads a nonce first. -/
def isFinal (e : ℕ) : Use := within (.engineMutex e) (maybe (read (.votes e)))

end Consensus

/-- The calls that threads make beside the loops. What starts a loop or joins its thread is not among them. -/
inductive Call
  | log
  | setLevel
  | incCounter
  | logTransactionEvent
  | logIBCEvent
  | logNetworkDrop
  | logNodeState (key : Bytes)
  | logRelayerState (key : Bytes)
  | enableCategory (category : LogCategory)
  | flushAll (nodes relayers : List Bytes)
  | openChannel (c : ℕ) (key : Bytes)
  | closeChannel (c : ℕ)
  | bind (c : ℕ)
  | unbind (c : ℕ)
  | isBound (c : ℕ)
  | sendIBC (c : ℕ) (key : Bytes) (handlers : List Handler)
  | onIBCPacket (c : ℕ) (key : Bytes) (received acked : List Handler)
  | onIBCAck (handlers : List Handler)
  | head (c : ℕ)
  | appendBlock (c : ℕ) (handlers : List Handler)
  | registerNodeId (c : ℕ)
  | add (c : ℕ)
  | drain (c : ℕ)
  | size (c : ℕ)
  | subscribe
  | unsubscribe
  | publish (handlers : List Handler)
  | registerEndpoint
  | unregisterEndpoint
  | setParams
  | send
  | waitForPendingDeliveries (sleeps : ℕ)
  | submitTransaction (c : ℕ)
  | onBytes (n : ℕ)
  | stopNode (n : ℕ)
  | connectChainMailbox (r : ℕ)
  | setDropOnRoute (r : ℕ)
  | relayPacket (r : ℕ)
  | relayAck (r : ℕ)
  | stopRelayer (r : ℕ)
  | work (e : ℕ)
  | vote (e : ℕ)
  | isFinal (e : ℕ)

def Call.code : Call → Use
  | .log => Logger.log
  | .setLevel => Logger.setLevel
  | .incCounter => LockUse.incCounter
  | .logTransactionEvent => DetailedLogger.logTransactionEvent
  | .logIBCEvent => DetailedLogger.logIBCEvent
  | .logNetworkDrop => DetailedLogger.logNetworkDrop
  | .logNodeState key => DetailedLogger.logNodeState key
  | .logRelayerState key => DetailedLogger.logRelayerState key
  | .enableCategory category => DetailedLogger.enableCategory category
  | .flushAll nodes relayers => DetailedLogger.flushAll nodes relayers
  | .openChannel c key => Blockchain.openChannel c key
  | .closeChannel c => Blockchain.closeChannel c
  | .bind c => IBCRouter.bind c
  | .unbind c => IBCRouter.unbind c
  | .isBound c => IBCRouter.isBound c
  | .sendIBC c key handlers => Blockchain.sendIBC c key handlers
  | .onIBCPacket c key received acked => Blockchain.onIBCPacket c key received acked
  | .onIBCAck handlers => Blockchain.onIBCAck handlers
  | .head c => Blockchain.head c
  | .appendBlock c handlers => Blockchain.appendBlock c handlers
  | .registerNodeId c => Blockchain.registerNodeId c
  | .add c => Mempool.add c
  | .drain c => Mempool.drain c
  | .size c => Mempool.size c
  | .subscribe => EventBus.subscribe
  | .unsubscribe => EventBus.unsubscribe
  | .publish handlers => EventBus.publish handlers
  | .registerEndpoint => Transport.registerEndpoint
  | .unregisterEndpoint => Transport.unregisterEndpoint
  | .setParams => Transport.setParams
  | .send => Transport.send
  | .waitForPendingDeliveries sleeps => Transport.waitForPendingDeliveries sleeps
  | .submitTransaction c => Node.submitTransaction c
  | .onBytes n => Node.onBytes n
  | .stopNode n => Node.stop n
  | .connectChainMailbox r => Relayer.connectChainMailbox r
  | .setDropOnRoute r => Relayer.setDropOnRoute r
  | .relayPacket r => Relayer.relayPacket r
  | .relayAck r => Relayer.relayAck r
  | .stopRelayer r => Relayer.stop r
  | .work e => Consensus.work e
  | .vote e => Consensus.vote e
  | .isFinal e => Consensus.isFinal e

inductive Job
  | call (call : Call)
  | node (n c : ℕ) (key channel : Bytes) (sleeps : ℕ) (received acked : List Handler)
  | relayer (r : ℕ) (key : Bytes)
  | worker (n sleeps : ℕ)

def Job.code : Job → Use
  | .call c => c.code
  | .node n c key channel sleeps received acked => Node.runLoop n c key channel sleeps received acked
  | .relayer r key => Relayer.runLoop r key
  | .worker n sleeps => Transport.workerLoop n sleeps

def threads (jobs : List (List Job)) : List (Thread Lock Datum) :=
  jobs.map fun js => Thread.start (Code.all (js.map Job.code))

theorem threads_eq (jobs : List (List Job)) :
    threads jobs = (jobs.map fun js => Code.all (js.map Job.code)).map Thread.start := by
  rw [List.map_map]
  rfl

theorem threads_exclusive (jobs : List (List Job)) : Exclusive (threads jobs) := by
  rw [threads_eq]
  exact exclusive_start _

end InterchainCommunication.LockUse

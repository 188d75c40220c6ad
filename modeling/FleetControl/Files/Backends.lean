import FleetControl.Cluster.Basic
import FleetControl.Files.Versioned

/-!
The files that describe backends: the policies of each cluster, the instances of each of its
sub-clusters, and the split of its traffic as one BFE cluster sees it.
-/

namespace FleetControl.Files

open Json.RecordReader

structure BackendConf where
  timeoutConnSrv : Int32
  timeoutResponseHeader : Int32
  maxIdleConnsPerHost : Int32
  deriving DecidableEq

instance : Json.Encode BackendConf where
  encode c := .obj [("TimeoutConnSrv", encode c.timeoutConnSrv),
    ("TimeoutResponseHeader", encode c.timeoutResponseHeader),
    ("MaxIdleConnsPerHost", encode c.maxIdleConnsPerHost)]

instance : Json.Decode BackendConf where
  decode? := Json.record? do
    return ⟨← required "TimeoutConnSrv", ← required "TimeoutResponseHeader",
      ← required "MaxIdleConnsPerHost"⟩

structure CheckConf where
  schem : String
  uri : String
  host : String
  statusCode : Int32
  failNum : Int32
  checkInterval : Int32
  deriving DecidableEq

instance : Json.Encode CheckConf where
  encode c := .obj [("Schem", encode c.schem), ("Uri", encode c.uri), ("Host", encode c.host),
    ("StatusCode", encode c.statusCode), ("FailNum", encode c.failNum),
    ("CheckInterval", encode c.checkInterval)]

instance : Json.Decode CheckConf where
  decode? := Json.record? do
    return ⟨← required "Schem", ← required "Uri", ← required "Host", ← required "StatusCode",
      ← required "FailNum", ← required "CheckInterval"⟩

structure HashConf where
  hashStrategy : Int32
  hashHeader : Option String
  sessionSticky : Bool
  deriving DecidableEq

instance : Json.Encode HashConf where
  encode c := .obj ([("HashStrategy", encode c.hashStrategy)] ++
    (c.hashHeader.map fun h => ("HashHeader", encode h)).toList ++
    [("SessionSticky", encode c.sessionSticky)])

instance : Json.Decode HashConf where
  decode? := Json.record? do
    return ⟨← required "HashStrategy", ← optional "HashHeader", ← required "SessionSticky"⟩

structure GslbBasicConf where
  crossRetry : Int32
  retryMax : Int32
  hashConf : HashConf
  deriving DecidableEq

instance : Json.Encode GslbBasicConf where
  encode c := .obj [("CrossRetry", encode c.crossRetry), ("RetryMax", encode c.retryMax),
    ("HashConf", encode c.hashConf)]

instance : Json.Decode GslbBasicConf where
  decode? := Json.record? do
    return ⟨← required "CrossRetry", ← required "RetryMax", ← required "HashConf"⟩

structure ClusterBasicConf where
  timeoutReadClient : Int32
  timeoutWriteClient : Int32
  timeoutReadClientAgain : Int32
  reqWriteBufferSize : Int32
  reqFlushInterval : Int32
  resFlushInterval : Int32
  cancelOnClientClose : Bool
  deriving DecidableEq

instance : Json.Encode ClusterBasicConf where
  encode c := .obj [("TimeoutReadClient", encode c.timeoutReadClient),
    ("TimeoutWriteClient", encode c.timeoutWriteClient),
    ("TimeoutReadClientAgain", encode c.timeoutReadClientAgain),
    ("ReqWriteBufferSize", encode c.reqWriteBufferSize),
    ("ReqFlushInterval", encode c.reqFlushInterval),
    ("ResFlushInterval", encode c.resFlushInterval),
    ("CancelOnClientClose", encode c.cancelOnClientClose)]

instance : Json.Decode ClusterBasicConf where
  decode? := Json.record? do
    return ⟨← required "TimeoutReadClient", ← required "TimeoutWriteClient",
      ← required "TimeoutReadClientAgain", ← required "ReqWriteBufferSize",
      ← required "ReqFlushInterval", ← required "ResFlushInterval",
      ← required "CancelOnClientClose"⟩

structure ClusterConf where
  backendConf : BackendConf
  checkConf : CheckConf
  gslbBasic : GslbBasicConf
  clusterBasic : ClusterBasicConf
  deriving DecidableEq

namespace ClusterConf

instance : Json.Encode ClusterConf where
  encode c := .obj [("BackendConf", encode c.backendConf), ("CheckConf", encode c.checkConf),
    ("GslbBasic", encode c.gslbBasic), ("ClusterBasic", encode c.clusterBasic)]

instance : Json.Decode ClusterConf where
  decode? := Json.record? do
    return ⟨← required "BackendConf", ← required "CheckConf", ← required "GslbBasic",
      ← required "ClusterBasic"⟩

/-- A header is only written for a strategy that reads it. -/
def ofRecord (c : Cluster.Record) : ClusterConf where
  backendConf :=
    ⟨c.basic.timeouts.connBackend, c.basic.timeouts.responseHeader,
      c.basic.connection.maxIdleConnPerHost⟩
  checkConf :=
    ⟨c.passiveHealthCheck.schema.text, c.passiveHealthCheck.uri, c.passiveHealthCheck.host,
      c.passiveHealthCheck.statuscode, c.passiveHealthCheck.failnum, c.passiveHealthCheck.interval⟩
  gslbBasic :=
    ⟨c.basic.retries.maxRetryCrossSubcluster, c.basic.retries.maxRetryInSubcluster,
      ⟨c.stickySessions.hashStrategy.code,
        if c.stickySessions.hashStrategy.usesHeader then c.stickySessions.hashHeader else none,
        c.stickySessions.stickyType = .backend⟩⟩
  clusterBasic :=
    ⟨c.basic.timeouts.readClient, c.basic.timeouts.writeClient, c.basic.timeouts.readClientAgain,
      c.basic.buffers.reqWriteBufferSize, c.basic.buffers.reqFlushInterval,
      c.basic.buffers.resFlushInterval, c.basic.connection.cancelOnClientClose⟩

end ClusterConf

structure ClusterTable where
  version : String
  config : SortedMap String ClusterConf
  deriving DecidableEq

namespace ClusterTable

instance : Versioned ClusterTable := ⟨version, fun v f => { f with version := v }⟩

instance : Json.Encode ClusterTable where
  encode f := .obj [("Version", encode f.version), ("Config", encode f.config)]

instance : Json.Decode ClusterTable where
  decode? := Json.record? do
    return ⟨← required "Version", ← required "Config"⟩

end ClusterTable

structure InstanceConf where
  name : String
  addr : String
  port : UInt16
  weight : Int32
  deriving DecidableEq

namespace InstanceConf

instance : Json.Encode InstanceConf where
  encode c := .obj [("Name", encode c.name), ("Addr", encode c.addr), ("Port", encode c.port),
    ("Weight", encode c.weight)]

instance : Json.Decode InstanceConf where
  decode? := Json.record? do
    return ⟨← required "Name", ← required "Addr", ← required "Port", ← required "Weight"⟩

def ofInstance (pool : Pool) (i : Instance) : Except Fault InstanceConf :=
  match i.defaultPort with
  | some port => .ok ⟨i.hostname, i.ip, port, i.weight⟩
  | none =>
    .error (.dirtyData ("Instance '" ++ i.hostname ++ "' of pool '" ++ pool.name ++ "' has no port"))

end InstanceConf

structure InstanceTable where
  version : String
  config : SortedMap String (SortedMap String (List InstanceConf))
  deriving DecidableEq

namespace InstanceTable

instance : Versioned InstanceTable := ⟨version, fun v f => { f with version := v }⟩

instance : Json.Encode InstanceTable where
  encode f := .obj [("Version", encode f.version), ("Config", encode f.config)]

instance : Json.Decode InstanceTable where
  decode? := Json.record? do
    return ⟨← required "Version", ← required "Config"⟩

end InstanceTable

/-- One BFE cluster's row of every cluster's load matrix. Its version is called a time stamp. -/
structure Gslb where
  clusters : SortedMap String LoadRow
  hostname : String
  ts : String
  deriving DecidableEq

namespace Gslb

instance : Versioned Gslb := ⟨ts, fun v f => { f with ts := v }⟩

instance : Json.Encode Gslb where
  encode f := .obj [("Clusters", encode f.clusters), ("Hostname", encode f.hostname),
    ("Ts", encode f.ts)]

instance : Json.Decode Gslb where
  decode? := Json.record? do
    return ⟨← required "Clusters", ← required "Hostname", ← required "Ts"⟩

end Gslb
end FleetControl.Files

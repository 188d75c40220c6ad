import FleetControl.Json.Codec
import FleetControl.Validation

/-!
Backend policies of a cluster: connections, retries, buffers, timeouts, session stickiness and the
passive health check. Every member may be left out and then has the value given here.
-/

namespace FleetControl

open Json.RecordReader Validation

structure ConnectionPolicy where
  maxIdleConnPerHost : Int32 := 2
  cancelOnClientClose : Bool := false
  deriving DecidableEq, Repr

namespace ConnectionPolicy

instance : Json.Encode ConnectionPolicy where
  encode p := .obj [("max_idle_conn_per_host", encode p.maxIdleConnPerHost),
    ("cancel_on_client_close", encode p.cancelOnClientClose)]

instance : Json.Decode ConnectionPolicy where
  decode? := Json.record? do
    return ⟨← defaulted "max_idle_conn_per_host" 2, ← defaulted "cancel_on_client_close" false⟩

def findings (p : ConnectionPolicy) : Findings :=
  .ofField "max_idle_conn_per_host" (range (some 0) (some 10000) none p.maxIdleConnPerHost.toInt)

end ConnectionPolicy

structure RetryPolicy where
  maxRetryInSubcluster : Int32 := 2
  maxRetryCrossSubcluster : Int32 := 0
  deriving DecidableEq, Repr

namespace RetryPolicy

instance : Json.Encode RetryPolicy where
  encode p := .obj [("max_retry_in_subcluster", encode p.maxRetryInSubcluster),
    ("max_retry_cross_subcluster", encode p.maxRetryCrossSubcluster)]

instance : Json.Decode RetryPolicy where
  decode? := Json.record? do
    return ⟨← defaulted "max_retry_in_subcluster" 2, ← defaulted "max_retry_cross_subcluster" 0⟩

def findings (p : RetryPolicy) : Findings :=
  .ofField "max_retry_in_subcluster"
    (range (some 0) (some 10) (some "Retries inside a sub cluster must be between 0 and 10")
      p.maxRetryInSubcluster.toInt) ++
  .ofField "max_retry_cross_subcluster"
    (range (some 0) (some 10) (some "Retries across sub clusters must be between 0 and 10")
      p.maxRetryCrossSubcluster.toInt)

end RetryPolicy

/-- Sizes in kilobytes and intervals in milliseconds; a response interval of -1 means no flushing. -/
structure BufferPolicy where
  reqWriteBufferSize : Int32 := 512
  reqFlushInterval : Int32 := 0
  resFlushInterval : Int32 := -1
  deriving DecidableEq, Repr

namespace BufferPolicy

instance : Json.Encode BufferPolicy where
  encode p := .obj [("req_write_buffer_size", encode p.reqWriteBufferSize),
    ("req_flush_interval", encode p.reqFlushInterval),
    ("res_flush_interval", encode p.resFlushInterval)]

instance : Json.Decode BufferPolicy where
  decode? := Json.record? do
    return ⟨← defaulted "req_write_buffer_size" 512, ← defaulted "req_flush_interval" 0,
      ← defaulted "res_flush_interval" (-1)⟩

def findings (p : BufferPolicy) : Findings :=
  .ofField "req_write_buffer_size"
    (range (some 1) none (some "Request write buffer size must be positive")
      p.reqWriteBufferSize.toInt) ++
  .ofField "req_flush_interval" (range (some 0) none none p.reqFlushInterval.toInt) ++
  .ofField "res_flush_interval" (range (some (-1)) none none p.resFlushInterval.toInt)

end BufferPolicy

/-- Milliseconds. -/
structure TimeoutPolicy where
  connBackend : Int32 := 2000
  responseHeader : Int32 := 60000
  readClient : Int32 := 30000
  readClientAgain : Int32 := 60000
  writeClient : Int32 := 60000
  deriving DecidableEq, Repr

namespace TimeoutPolicy

instance : Json.Encode TimeoutPolicy where
  encode p := .obj [("conn_backend", encode p.connBackend),
    ("response_header", encode p.responseHeader), ("read_client", encode p.readClient),
    ("read_client_again", encode p.readClientAgain), ("write_client", encode p.writeClient)]

instance : Json.Decode TimeoutPolicy where
  decode? := Json.record? do
    return ⟨← defaulted "conn_backend" 2000, ← defaulted "response_header" 60000,
      ← defaulted "read_client" 30000, ← defaulted "read_client_again" 60000,
      ← defaulted "write_client" 60000⟩

def findings (p : TimeoutPolicy) : Findings :=
  let positive (name : String) (n : Int32) := Findings.ofField name (range (some 1) none none n.toInt)
  positive "conn_backend" p.connBackend ++ positive "response_header" p.responseHeader ++
  positive "read_client" p.readClient ++ positive "read_client_again" p.readClientAgain ++
  positive "write_client" p.writeClient

end TimeoutPolicy

structure ClusterBasic where
  connection : ConnectionPolicy := {}
  retries : RetryPolicy := {}
  buffers : BufferPolicy := {}
  timeouts : TimeoutPolicy := {}
  deriving DecidableEq, Repr

namespace ClusterBasic

instance : Json.Encode ClusterBasic where
  encode b := .obj [("connection", encode b.connection), ("retries", encode b.retries),
    ("buffers", encode b.buffers), ("timeouts", encode b.timeouts)]

instance : Json.Decode ClusterBasic where
  decode? := Json.record? do
    return ⟨← defaulted "connection" {}, ← defaulted "retries" {}, ← defaulted "buffers" {},
      ← defaulted "timeouts" {}⟩

def findings (b : ClusterBasic) : Findings :=
  b.connection.findings.inside ++ b.retries.findings.inside ++ b.buffers.findings.inside ++
  b.timeouts.findings.inside

end ClusterBasic

inductive StickyType where
  | subCluster | backend
  deriving DecidableEq, Repr

namespace StickyType

def text : StickyType → String
  | subCluster => "sub_cluster"
  | backend => "instance"

instance : Json.Encode StickyType := ⟨fun t => .str t.text⟩
instance : Json.Decode StickyType :=
  ⟨Json.constant? [("sub_cluster", subCluster), ("instance", backend)]⟩

end StickyType

inductive HashStrategy where
  | clientIdOnly | clientIpOnly | clientIdPreferred
  deriving DecidableEq, Repr

namespace HashStrategy

def text : HashStrategy → String
  | clientIdOnly => "client_id_only"
  | clientIpOnly => "client_ip_only"
  | clientIdPreferred => "client_id_preferred"

instance : Json.Encode HashStrategy := ⟨fun s => .str s.text⟩
instance : Json.Decode HashStrategy :=
  ⟨Json.constant? [("client_id_only", clientIdOnly), ("client_ip_only", clientIpOnly),
    ("client_id_preferred", clientIdPreferred)]⟩

def code : HashStrategy → Int32
  | clientIdOnly => 0
  | clientIpOnly => 1
  | clientIdPreferred => 2

def usesHeader : HashStrategy → Bool
  | clientIpOnly => false
  | _ => true

end HashStrategy

structure StickySessions where
  stickyType : StickyType := .subCluster
  hashStrategy : HashStrategy := .clientIpOnly
  hashHeader : Option String := none
  deriving DecidableEq, Repr

namespace StickySessions

instance : Json.Encode StickySessions where
  encode s := .obj [("sticky_type", encode s.stickyType), ("hash_strategy", encode s.hashStrategy),
    ("hash_header", encode s.hashHeader)]

instance : Json.Decode StickySessions where
  decode? := Json.record? do
    return ⟨← defaulted "sticky_type" .subCluster, ← defaulted "hash_strategy" .clientIpOnly,
      ← defaultedOptional "hash_header"⟩

def lacksHeader (s : StickySessions) : Bool :=
  s.hashStrategy.usesHeader && s.hashHeader.all Text.allBlank

def refusal? (s : StickySessions) : Option Fault :=
  if s.lacksHeader then
    some (.onField "Hash strategies keyed on a client id need a hash header"
      "sticky_sessions.hash_header")
  else none

end StickySessions

inductive HealthCheckSchema where
  | http | https | tcp
  deriving DecidableEq, Repr

namespace HealthCheckSchema

def text : HealthCheckSchema → String
  | http => "http"
  | https => "https"
  | tcp => "tcp"

instance : Json.Encode HealthCheckSchema := ⟨fun s => .str s.text⟩
instance : Json.Decode HealthCheckSchema :=
  ⟨Json.constant? [("http", http), ("https", https), ("tcp", tcp)]⟩

end HealthCheckSchema

/-- An interval in milliseconds and the failures in a row that take an instance out; a status code of
zero stands for any success. -/
structure PassiveHealthCheck where
  schema : HealthCheckSchema := .http
  interval : Int32 := 1000
  failnum : Int32 := 10
  statuscode : Int32 := 0
  host : String := ""
  uri : String := "/health_check"
  deriving DecidableEq, Repr

namespace PassiveHealthCheck

instance : Json.Encode PassiveHealthCheck where
  encode c := .obj [("schema", encode c.schema), ("interval", encode c.interval),
    ("failnum", encode c.failnum), ("statuscode", encode c.statuscode), ("host", encode c.host),
    ("uri", encode c.uri)]

instance : Json.Decode PassiveHealthCheck where
  decode? := Json.record? do
    return ⟨← defaulted "schema" .http, ← defaulted "interval" 1000, ← defaulted "failnum" 10,
      ← defaulted "statuscode" 0, ← defaulted "host" "", ← defaulted "uri" "/health_check"⟩

def findings (c : PassiveHealthCheck) : Findings :=
  .ofField "interval" (range (some 1) none none c.interval.toInt) ++
  .ofField "failnum" (range (some 1) none none c.failnum.toInt) ++
  .ofField "statuscode" (range (some 0) (some 599) none c.statuscode.toInt)

end PassiveHealthCheck
end FleetControl

import FleetControl.Certificate
import FleetControl.Files.Versioned

/-!
The file of server certificates: the default one and the paths of each.
-/

namespace FleetControl.Files

open Json.RecordReader

structure CertFiles where
  serverCertFile : String
  serverKeyFile : String
  ocspResponseFile : Option String
  deriving DecidableEq

instance : Json.Encode CertFiles where
  encode c := .obj ([("ServerCertFile", encode c.serverCertFile),
    ("ServerKeyFile", encode c.serverKeyFile)] ++
    (c.ocspResponseFile.map fun f => ("OcspResponseFile", encode f)).toList)

instance : Json.Decode CertFiles where
  decode? := Json.record? do
    return ⟨← required "ServerCertFile", ← required "ServerKeyFile",
      ← optional "OcspResponseFile"⟩

structure ServerCertConf where
  /-- Empty while there is no certificate. -/
  defaultName : String
  certConf : SortedMap String CertFiles
  deriving DecidableEq

instance : Json.Encode ServerCertConf where
  encode c := .obj [("Default", encode c.defaultName), ("CertConf", encode c.certConf)]

instance : Json.Decode ServerCertConf where
  decode? := Json.record? do
    return ⟨← required "Default", ← required "CertConf"⟩

structure ServerCerts where
  version : String
  config : ServerCertConf
  deriving DecidableEq

namespace ServerCerts

instance : Versioned ServerCerts := ⟨version, fun v f => { f with version := v }⟩

instance : Json.Encode ServerCerts where
  encode f := .obj [("Version", encode f.version), ("Config", encode f.config)]

instance : Json.Decode ServerCerts where
  decode? := Json.record? do
    return ⟨← required "Version", ← required "Config"⟩

end ServerCerts
end FleetControl.Files

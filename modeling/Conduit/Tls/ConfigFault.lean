/-!
# Faults of a configuration

Why a TLS configuration cannot be built or replaced.
-/

namespace Conduit.Tls

/-- Why a TLS configuration cannot be built or replaced. -/
inductive ConfigFault
  | pem (text : String)
  | noCertificates
  /-- The engine refuses it. -/
  | refused (text : String)
  /-- The text of the options cannot be read. -/
  | toml
  | invalid (rule : String)
  /-- It is the other side that would be needed. -/
  | sideMismatch (serverExpected : Bool)
  deriving DecidableEq, Repr

namespace ConfigFault

/-- One stable code stands for all of them. -/
def code : String := "spark.altcp.tls.config_invalid"

/-- The name of a fault. -/
def label : ConfigFault → String
  | .pem _ => "Pem"
  | .noCertificates => "NoCertificates"
  | .refused _ => "Rustls"
  | .toml => "Toml"
  | .invalid _ => "Invalid"
  | .sideMismatch _ => "SideMismatch"

/-- The text shown to a person. -/
def message : ConfigFault → String
  | .pem text => "PEM 解析失败：" ++ text
  | .noCertificates => "PEM 输入中没有任何证书"
  | .refused text => "rustls 拒绝了该配置：" ++ text
  | .toml => "TLS 选项解析失败："
  | .invalid rule => "TLS 选项非法：" ++ rule
  | .sideMismatch true => "配置角色不匹配：期望服务端配置"
  | .sideMismatch false => "配置角色不匹配：期望客户端配置"

end ConfigFault

end Conduit.Tls

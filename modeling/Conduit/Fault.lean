import Conduit.Text.Quoted

/-!
# Faults of a connection

Every operation and every callback speaks of failure through one type, `Fault`.

* `Fault.kind`: the stable code and the short phrase of a fault.
* `Fault.category`: what a caller may do about it; only flow control is worth a retry.
* `Fault.message`: the text shown to a person.
-/

namespace Conduit

/-- Why an operation failed or a connection ended. -/
inductive Fault
  | invalidArgument
  | invalidState (why : String)
  | wouldBlock
  | outOfMemory
  | closed
  | aborted
  | reset
  | handshake (text : String)
  | tls (text : String)
  | engine (text : String)
  | internal (what : String)
  deriving DecidableEq, Repr, Inhabited

/-- What an operation without a value of its own answers. -/
abbrev Outcome := Except Fault Unit

instance : DecidableEq Outcome := fun a b =>
  match a, b with
  | .ok (), .ok () => isTrue rfl
  | .ok (), .error _ => isFalse (by simp)
  | .error _, .ok () => isFalse (by simp)
  | .error f, .error g => if h : f = g then isTrue (h ▸ rfl) else isFalse (by simpa using h)

namespace Fault

/-- A stable code, and the phrase that names the operation in a log. -/
structure Kind where
  code : String
  phrase : String
  deriving DecidableEq, Repr

/-- The stage of a TLS session that a failure belongs to. -/
def Kind.handshake : Kind := ⟨"spark.altcp.tls.handshake_failed", "tls handshake"⟩

/-- Failures of an established session. -/
def Kind.record : Kind := ⟨"spark.altcp.tls.record_failed", "tls record processing"⟩

/-- Each fault has one kind; texts play no part in it. -/
def kind : Fault → Kind
  | .invalidArgument => ⟨"spark.altcp.invalid_argument", "invalid handle or argument"⟩
  | .invalidState _ => ⟨"spark.altcp.invalid_state", "operation not allowed in current state"⟩
  | .wouldBlock => ⟨"spark.altcp.would_block", "lower send buffer full"⟩
  | .outOfMemory => ⟨"spark.altcp.out_of_memory", "allocation failed"⟩
  | .closed => ⟨"spark.altcp.closed", "connection closed"⟩
  | .aborted => ⟨"spark.altcp.aborted", "connection aborted"⟩
  | .reset => ⟨"spark.altcp.reset", "connection reset by peer"⟩
  | .handshake _ => .handshake
  | .tls _ => .record
  | .engine _ => ⟨"spark.altcp.tcp.engine_failed", "tcp engine"⟩
  | .internal _ => ⟨"spark.altcp.internal", "internal invariant violated"⟩

/-- The stable code of a fault. -/
def code (f : Fault) : String := f.kind.code

/-- What a caller may conclude from a fault. -/
inductive Category
  | flowControl | protocol | resourceExhausted | peerClosed | contractViolation | terminated
  deriving DecidableEq, Repr

/-- Six categories cover all faults. -/
def category : Fault → Category
  | .wouldBlock => .flowControl
  | .handshake _ | .tls _ => .protocol
  | .outOfMemory => .resourceExhausted
  | .closed => .peerClosed
  | .invalidArgument | .invalidState _ | .internal _ => .contractViolation
  | .aborted | .reset | .engine _ => .terminated

/-- Only flow control lets the caller try the same call again. -/
def retryable (f : Fault) : Bool := f.category = .flowControl

/-- The text shown to a person. -/
def message : Fault → String
  | .invalidArgument => "无效的连接句柄或参数"
  | .invalidState why => "当前状态不允许该操作：" ++ why
  | .wouldBlock => "下层发送缓冲已满，需稍后重试"
  | .outOfMemory => "资源不足，无法完成本次操作"
  | .closed => "连接已关闭"
  | .aborted => "连接已中止"
  | .reset => "连接被对端重置"
  | .handshake text => "TLS 握手失败：" ++ text
  | .tls text => "TLS 记录处理失败：" ++ text
  | .engine text => "TCP 引擎错误：" ++ text
  | .internal what => "内部不变量被破坏：" ++ what

/-- The name of the variant. -/
def label : Fault → String
  | .invalidArgument => "InvalidArgument"
  | .invalidState _ => "InvalidState"
  | .wouldBlock => "WouldBlock"
  | .outOfMemory => "OutOfMemory"
  | .closed => "Closed"
  | .aborted => "Aborted"
  | .reset => "Reset"
  | .handshake _ => "Handshake"
  | .tls _ => "Tls"
  | .engine _ => "Engine"
  | .internal _ => "Internal"

/-- The text that a fault carries. -/
def detail? : Fault → Option String
  | .invalidState s | .handshake s | .tls s | .engine s | .internal s => some s
  | _ => none

/-- The text of a fault in diagnostics: its name, and its own text quoted. -/
def debugText (f : Fault) : String :=
  match f.detail? with
  | none => f.label
  | some s => f.label ++ "(" ++ Text.quote s ++ ")"

end Fault

end Conduit

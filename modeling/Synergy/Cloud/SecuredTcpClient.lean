import Mathlib.Data.Option.Basic

/-!
# How a connection to the cloud is set up

`ProxyClient::setProxy` and `async_connect`, and `SecuredTcpClient`, which resolves, connects and
shakes hands, and says with `connected` or `connectFailed` how that went. It says neither where an
operation was aborted, nor where the connection to a proxy fails: `connect_handler` calls the
handler of `async_connect` only if there was no error.

What an operation comes to is an input, and so is what the synchronous `resolve` returns. Closing a
socket is not a step of its own: an operation may complete with any error at any time.
-/

set_option autoImplicit false

namespace Synergy

/-- `boost::system::error_code`, of an error. -/
inductive SecuredTcpClient.ErrorCode where
  | operationAborted
  | other (value : Int)
  deriving DecidableEq

open SecuredTcpClient (ErrorCode)

/-- `boost::asio::error::host_not_found`. -/
def hostNotFound : ErrorCode := .other 1

structure ProxyClient where
  host : String := ""
  port : Int := 80
  connected : Bool := false
  deriving DecidableEq

def ProxyClient.enabled (p : ProxyClient) : Bool :=
  p.host ≠ ""

def ProxyClient.setProxy (p : ProxyClient) (host : String) (port : Int) : Bool × ProxyClient :=
  if port < 0 ∨ port > 65535 then (false, p)
  else
    let port := if port = 0 then 80 else port
    if (host, port) ≠ (p.host, p.port) then (true, ⟨host, port, false⟩) else (false, p)

/-- What `resolve` returns. -/
inductive Resolved where
  | error (ec : ErrorCode)
  | noEndpoints
  | endpoints
  deriving DecidableEq

/-- `resolve` fails, and is not aborted. -/
def Resolved.Refused : Resolved → Prop
  | .error (.other _) => True
  | .noEndpoints => True
  | _ => False

instance (resolved : Resolved) : Decidable resolved.Refused :=
  match resolved with
  | .error (.other _) | .noEndpoints => isTrue trivial
  | .error .operationAborted | .endpoints => isFalse id

namespace SecuredTcpClient

/-- The operations of which one is outstanding while the connection is set up. -/
inductive Op where
  | proxyResolve
  | proxyConnect
  | connect
  | handshake
  deriving DecidableEq

/-- What an operation completes with, and what asking the proxy for a tunnel comes to. -/
structure Result where
  ec : Option ErrorCode := none
  tunnel : Option ErrorCode := none
  deriving DecidableEq

/-- What comes of a step: another operation is started, one of the signals is emitted, or nothing
happens. -/
inductive Outcome where
  | started (op : Op)
  | connected
  | connectFailed (ec : ErrorCode)
  | silent
  deriving DecidableEq

end SecuredTcpClient

structure SecuredTcpClient where
  proxy : ProxyClient := {}
  connected : Bool := false
  deriving DecidableEq

namespace SecuredTcpClient

def setProxy (c : SecuredTcpClient) (host : String) (port : Int) : Bool × SecuredTcpClient :=
  let (changed, proxy) := c.proxy.setProxy host port
  (changed, { c with proxy := proxy })

def onSslHandshakeFinished (c : SecuredTcpClient) : Option ErrorCode → SecuredTcpClient × Outcome
  | some .operationAborted => (c, .silent)
  | some ec => (c, .connectFailed ec)
  | none => ({ c with connected := true }, .connected)

def onConnectFinished (c : SecuredTcpClient) : Option ErrorCode → SecuredTcpClient × Outcome
  | some .operationAborted => (c, .silent)
  | some ec => (c, .connectFailed ec)
  | none => (c, .started .handshake)

/-- `ProxyClient::async_connect` as `onResolveFinished` calls it. It throws if the proxy client is
connected. -/
def asyncConnect (isAddress : String → Bool) (c : SecuredTcpClient) (isEnd : Bool) :
    Option (SecuredTcpClient × Outcome) :=
  if c.proxy.connected then none
  else if isEnd then some (c.onConnectFinished (some hostNotFound))
  else if c.proxy.enabled then
    some (c, .started (if isAddress c.proxy.host then .proxyConnect else .proxyResolve))
  else some (c, .started .connect)

def onResolveFinished (isAddress : String → Bool) (c : SecuredTcpClient) :
    Resolved → Option (SecuredTcpClient × Outcome)
  | .error .operationAborted => some (c, .silent)
  | .error ec => some (c, .connectFailed ec)
  | .noEndpoints => c.asyncConnect isAddress true
  | .endpoints => c.asyncConnect isAddress false

def connect (isAddress : String → Bool) (c : SecuredTcpClient) (resolved : Resolved) :
    Option (SecuredTcpClient × Outcome) :=
  if c.connected then some (c, .silent) else c.onResolveFinished isAddress resolved

/-- The handler of `async_connect`, after the `CONNECT` request to the proxy. -/
def tunnelled (c : SecuredTcpClient) (ec : Option ErrorCode) : SecuredTcpClient × Outcome :=
  onConnectFinished { c with
    proxy := { c.proxy with connected := ec.isNone || c.proxy.connected } } ec

/-- The handler of an operation. -/
def completed (c : SecuredTcpClient) (op : Op) (result : Result) : SecuredTcpClient × Outcome :=
  match op, result.ec with
  | .proxyResolve, none => (c, .started .proxyConnect)
  | .proxyResolve, some _ => (c, .silent)
  | .proxyConnect, none => c.tunnelled result.tunnel
  | .proxyConnect, some _ => (c, .silent)
  | .connect, ec => onConnectFinished { c with proxy := { c.proxy with connected := true } } ec
  | .handshake, ec => c.onSslHandshakeFinished ec

/-- A completion that is passed on: no operation was aborted, and if it was for a proxy, that one
was resolved and reached. -/
def Heard : Op → Result → Prop
  | .proxyResolve, result => result.ec = none
  | .proxyConnect, result => result.ec = none ∧ result.tunnel ≠ some .operationAborted
  | .connect, result => result.ec ≠ some .operationAborted
  | .handshake, result => result.ec ≠ some .operationAborted

instance (op : Op) (result : Result) : Decidable (Heard op result) :=
  match op with
  | .proxyResolve => inferInstanceAs (Decidable (result.ec = none))
  | .proxyConnect => inferInstanceAs (Decidable (_ ∧ _))
  | .connect => inferInstanceAs (Decidable (result.ec ≠ some .operationAborted))
  | .handshake => inferInstanceAs (Decidable (result.ec ≠ some .operationAborted))

def IsFailure : Option ErrorCode → Prop
  | some (.other _) => True
  | _ => False

instance (ec : Option ErrorCode) : Decidable (IsFailure ec) :=
  match ec with
  | some (.other _) => isTrue trivial
  | some .operationAborted | none => isFalse id

/-- A completion after which the client says that it failed. -/
def Refused : Op → Result → Prop
  | .proxyResolve, _ => False
  | .proxyConnect, result => result.ec = none ∧ IsFailure result.tunnel
  | .connect, result => IsFailure result.ec
  | .handshake, result => IsFailure result.ec

instance (op : Op) (result : Result) : Decidable (Refused op result) :=
  match op with
  | .proxyResolve => isFalse id
  | .proxyConnect => inferInstanceAs (Decidable (_ ∧ _))
  | .connect => inferInstanceAs (Decidable (IsFailure result.ec))
  | .handshake => inferInstanceAs (Decidable (IsFailure result.ec))

variable {c : SecuredTcpClient} {op : Op} {result : Result}

theorem setProxy_connected (host : String) (port : Int) :
    (c.setProxy host port).2.connected = c.connected :=
  rfl

theorem setProxy_proxy_connected (h : c.proxy.connected = false) (host : String) (port : Int) :
    (c.setProxy host port).2.proxy.connected = false := by
  show (c.proxy.setProxy host port).2.connected = false
  unfold ProxyClient.setProxy
  split
  · exact h
  · dsimp only
    generalize (if port = 0 then 80 else port) = port
    split
    · rfl
    · exact h

theorem onSslHandshakeFinished_silent {ec : Option ErrorCode} :
    (c.onSslHandshakeFinished ec).2 = .silent ↔ ec = some .operationAborted := by
  cases ec with
  | none => simp [onSslHandshakeFinished]
  | some ec => cases ec <;> simp [onSslHandshakeFinished]

theorem onConnectFinished_silent {ec : Option ErrorCode} :
    (c.onConnectFinished ec).2 = .silent ↔ ec = some .operationAborted := by
  cases ec with
  | none => simp [onConnectFinished]
  | some ec => cases ec <;> simp [onConnectFinished]

/-- Nothing comes of a completion just where it is not passed on. -/
theorem completed_silent : (c.completed op result).2 = .silent ↔ ¬Heard op result := by
  obtain ⟨ec, tunnel⟩ := result
  cases op with
  | proxyResolve => cases ec <;> simp [completed, Heard]
  | proxyConnect =>
    cases ec with
    | none => simp [completed, Heard, tunnelled, onConnectFinished_silent]
    | some ec => simp [completed, Heard]
  | connect => simp [completed, Heard, onConnectFinished_silent]
  | handshake => simp [completed, Heard, onSslHandshakeFinished_silent]

theorem not_heard_of_aborted (h : result.ec = some .operationAborted) : ¬Heard op result := by
  cases op <;> simp [Heard, h]

theorem onSslHandshakeFinished_connectFailed {ec : Option ErrorCode} :
    (∃ ec', (c.onSslHandshakeFinished ec).2 = .connectFailed ec') ↔ IsFailure ec := by
  cases ec with
  | none => simp [onSslHandshakeFinished, IsFailure]
  | some ec => cases ec <;> simp [onSslHandshakeFinished, IsFailure]

theorem onConnectFinished_connectFailed {ec : Option ErrorCode} :
    (∃ ec', (c.onConnectFinished ec).2 = .connectFailed ec') ↔ IsFailure ec := by
  cases ec with
  | none => simp [onConnectFinished, IsFailure]
  | some ec => cases ec <;> simp [onConnectFinished, IsFailure]

theorem completed_connectFailed :
    (∃ ec', (c.completed op result).2 = .connectFailed ec') ↔ Refused op result := by
  obtain ⟨ec, tunnel⟩ := result
  cases op with
  | proxyResolve => cases ec <;> simp [completed, Refused]
  | proxyConnect =>
    cases ec with
    | none => simp [completed, Refused, tunnelled, onConnectFinished_connectFailed]
    | some ec => simp [completed, Refused]
  | connect => simp [completed, Refused, onConnectFinished_connectFailed]
  | handshake => simp [completed, Refused, onSslHandshakeFinished_connectFailed]

/-- A new client throws nothing, and is silent only if `resolve` was aborted. -/
theorem connect_new (isAddress : String → Bool) (resolved : Resolved)
    (hconnected : c.connected = false) (hproxy : c.proxy.connected = false) :
    ∃ c' outcome, c.connect isAddress resolved = some (c', outcome) ∧
      (outcome = .silent ↔ resolved = .error .operationAborted) ∧
      ((∃ ec, outcome = .connectFailed ec) ↔ resolved.Refused) := by
  unfold connect
  rw [if_neg (by simp [hconnected])]
  cases resolved with
  | error ec => cases ec <;> exact ⟨_, _, rfl, by simp, by simp [Resolved.Refused]⟩
  | noEndpoints =>
    refine ⟨c, .connectFailed hostNotFound, ?_, by simp, by simp [Resolved.Refused]⟩
    simp [onResolveFinished, asyncConnect, hproxy, onConnectFinished, hostNotFound]
  | endpoints =>
    by_cases henabled : c.proxy.enabled
    · refine ⟨c, .started (if isAddress c.proxy.host then .proxyConnect else .proxyResolve), ?_,
        by simp, by simp [Resolved.Refused]⟩
      simp [onResolveFinished, asyncConnect, hproxy, henabled]
    · refine ⟨c, .started .connect, ?_, by simp, by simp [Resolved.Refused]⟩
      simp [onResolveFinished, asyncConnect, hproxy, henabled]

end SecuredTcpClient

end Synergy

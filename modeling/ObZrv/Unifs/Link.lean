import ObZrv.Unifs.Protocol

/-!
# Unifs.Link

`RemoteConn::send_request` as `RemoteFs` and `RemoteFile` see it: a call that gives back a
response. A `Link` is any server behind any connection. It may answer each request with any status
and any payload that `on_header` lets through, it may keep state between requests, and the
connection may be lost at any request.

A `Session` adds the list of the requests handed over so far, so that a theorem can speak of what
was sent.
-/

namespace ObZrv

structure Request where
  cmd : UInt8
  payload : List UInt8
deriving DecidableEq, Repr

/-- A connection and the server at its other end. A payload above `MAX_PAYLOAD_SIZE` never gets
past `on_header`. -/
structure Link (C : Type) where
  connected : C → Bool
  serve : C → Request → Response × C
  payload_le : ∀ c r, (serve c r).1.payload.length ≤ MAX_PAYLOAD_SIZE

structure Session (C : Type) where
  conn : C
  sent : List Request
deriving DecidableEq, Repr

namespace Link

variable {C : Type} (link : Link C)

/-- `send_request`: with `connected_` false nothing is sent. -/
def sendRequest (s : Session C) (cmd : UInt8) (payload : List UInt8) : Response × Session C :=
  if link.connected s.conn then
    let (resp, conn) := link.serve s.conn ⟨cmd, payload⟩
    (resp, { conn, sent := s.sent ++ [⟨cmd, payload⟩] })
  else
    (Response.err, s)

theorem sendRequest_connected {s : Session C} (h : link.connected s.conn = true) (cmd : UInt8)
    (payload : List UInt8) :
    (link.sendRequest s cmd payload).2.sent = s.sent ++ [⟨cmd, payload⟩] := by
  simp [sendRequest, h]

theorem sendRequest_closed {s : Session C} (h : link.connected s.conn = false) (cmd : UInt8)
    (payload : List UInt8) : link.sendRequest s cmd payload = (Response.err, s) := by
  simp [sendRequest, h]

theorem sendRequest_payload_le (s : Session C) (cmd : UInt8) (payload : List UInt8) :
    (link.sendRequest s cmd payload).1.payload.length ≤ MAX_PAYLOAD_SIZE := by
  unfold sendRequest
  split
  · exact link.payload_le _ _
  · exact Nat.zero_le _

/-- A server that answers every request with one and the same response. -/
def constantServer (resp : Response) (h : resp.payload.length ≤ MAX_PAYLOAD_SIZE) : Link Unit where
  connected _ := true
  serve _ _ := (resp, ())
  payload_le _ _ := h

end Link

end ObZrv

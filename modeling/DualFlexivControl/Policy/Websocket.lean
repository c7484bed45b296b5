/-
The websocket policy client: `WebsocketTransport` of `policy/client.py`, against a server.

The server sends a metadata frame on every connection and then one frame for each request, in the
order of the requests, whenever it likes or never: frame `k + 1` of a connection answers its
request `k`. The client has no request ids. What pairs an answer with its request is that between
two calls nothing is outstanding on the connection it keeps ([`Transport.Idle`]), for the metadata
frame is received before the first request, and every path that leaves a frame unreceived drops
the connection.

`Exchange` and `Opening` say what the server and the network do during a call: which frames
arrive while the client waits, and whether `connect`, `send` or `recv` raise. They raise what the
`websockets` package documents: `OSError`, `TimeoutError` or a `WebSocketException`.
-/
import Mathlib.Data.List.Basic
import DualFlexivControl.Lib.Effects

set_option autoImplicit false

namespace DualFlexivControl.Policy.Client

open Effect

/-- What `recv` returns: `bytes` or `str`. -/
inductive Frame (Bytes : Type)
  | binary (bytes : Bytes)
  | text (message : String)
  deriving DecidableEq, Repr

/-- The frames the server sent on a connection, how many of them were received, and the requests
that it got. -/
structure Connection (Bytes : Type) where
  frames : List (Frame Bytes)
  received : ℕ
  requests : List Bytes
  deriving DecidableEq, Repr

/-- `packb` with `pack_array` and `unpackb` with `unpack_array`; `none` is an exception. -/
structure Codec (Payload Bytes Message : Type) where
  packb : Payload → Option Bytes
  unpackb : Bytes → Option Message

/-- The transport's variables, and all connections there ever were. -/
structure Transport (Bytes Message : Type) where
  connections : List (Connection Bytes)
  ws : Option ℕ
  server_metadata : Option Message

/-- The `PolicyError`s of the transport, by the text each begins with. -/
inductive TransportError
  | unreachable
  | failed
  | server (response : String)
  deriving DecidableEq, Repr

/-- The `PolicyUnavailable`s of the constructor, and a constructor that has not returned. -/
inductive Unavailable
  | aborted
  | budget
  | waiting
  deriving DecidableEq, Repr

/-- What the transport raises: an `OSError`, `TimeoutError` or `WebSocketException`, an error of
its own, or another exception, which nothing catches. -/
inductive Raised
  | connection
  | policy (error : TransportError)
  | unavailable (reason : Unavailable)
  | other
  deriving DecidableEq, Repr

section Transport

variable {Payload Bytes Message : Type}

/-- A method of the transport. -/
abbrev TransportM (Bytes Message : Type) := Effect Raised (Transport Bytes Message)

/-! ## The server -/

/-- The server sends a frame, unless it has answered everything it got. -/
def Connection.serve (conn : Connection Bytes) (frame : Frame Bytes) : Connection Bytes :=
  if conn.frames.length ≤ conn.requests.length then
    { conn with frames := conn.frames ++ [frame] }
  else conn

def Transport.on (t : Transport Bytes Message) (c : ℕ)
    (change : Connection Bytes → Connection Bytes) : Transport Bytes Message :=
  { t with connections := t.connections.modify c change }

def Transport.serve (t : Transport Bytes Message) (sent : ℕ × Frame Bytes) :
    Transport Bytes Message :=
  t.on sent.1 (·.serve sent.2)

/-- The frames that arrive, on any connection, while `recv` waits, and whether it raises although
a frame is there; without one it raises anyway. -/
structure Wait (Bytes : Type) where
  served : List (ℕ × Frame Bytes)
  raises : Bool

/-- A `send`, or one that raises; the server may have got the request all the same. -/
inductive Sending
  | sent
  | raises (delivered : Bool)

/-- `connect` and the first `recv`. -/
structure Opening (Bytes : Type) where
  connects : Bool
  metadata : Wait Bytes

/-- What happens during a call of `infer`. -/
structure Exchange (Bytes : Type) where
  opening : Opening Bytes
  sending : Sending
  answer : Wait Bytes

/-! ## The client -/

/-- `recv` of the connection `c`. -/
def recv (c : ℕ) (wait : Wait Bytes) : TransportM Bytes Message (Frame Bytes) := do
  update fun t => wait.served.foldl Transport.serve t
  let t ← get
  let frame := t.connections[c]?.bind fun conn => conn.frames[conn.received]?
  match wait.raises, frame with
  | false, some frame => do
    update (·.on c fun conn => { conn with received := conn.received + 1 })
    pure frame
  | _, _ => throw .connection

/-- `send` of the connection `c`. -/
def send (c : ℕ) (bytes : Bytes) : Sending → TransportM Bytes Message Unit
  | .sent => update (·.on c fun conn => { conn with requests := conn.requests ++ [bytes] })
  | .raises delivered => do
    if delivered = true then
      update (·.on c fun conn => { conn with requests := conn.requests ++ [bytes] })
    throw .connection

/-- `except (OSError, TimeoutError, WebSocketException)` -/
def except_connection {α : Type} (body handler : TransportM Bytes Message α) :
    TransportM Bytes Message α :=
  tryCatch body fun e => if e = .connection then handler else throw e

/-- The result of the codec, or its exception. -/
def coded {α : Type} : Option α → Except Raised α
  | some a => .ok a
  | none => .error .other

/-- `unpackb(frame, ...)`, which takes no `str`. -/
def unpack (codec : Codec Payload Bytes Message) : Frame Bytes → Option Message
  | .text _ => none
  | .binary bytes => codec.unpackb bytes

variable (codec : Codec Payload Bytes Message)

/-- `_open` -/
def open_connection (opening : Opening Bytes) : TransportM Bytes Message Unit := do
  if opening.connects = false then throw .connection
  let t ← get
  let c := t.connections.length
  update fun t => { t with connections := t.connections ++ [⟨[], 0, []⟩], ws := some c }
  let frame ← recv c opening.metadata
  let metadata ← call (coded (unpack codec frame))
  update fun t => { t with server_metadata := some metadata }

/-- `_drop` -/
def drop : TransportM Bytes Message Unit := update fun t => { t with ws := none }

/-- An attempt of the constructor, and why it is the last one if it fails. -/
structure Attempt (Bytes : Type) where
  opening : Opening Bytes
  last : Option Unavailable

/-- `_connect` -/
def connect : List (Attempt Bytes) → TransportM Bytes Message Unit
  | [] => throw (.unavailable .waiting)
  | attempt :: rest =>
    except_connection (open_connection codec attempt.opening) do
      drop
      match attempt.last with
      | some reason => throw (.unavailable reason)
      | none => connect rest

/-- The reconnect of `infer`. -/
def reconnect (opening : Opening Bytes) : TransportM Bytes Message Unit :=
  except_connection (open_connection codec opening) do
    drop
    throw (.policy .unreachable)

/-- A request and its answer, of the connection `c`. -/
def round_trip (c : ℕ) (payload : Payload) (env : Exchange Bytes) :
    TransportM Bytes Message (Frame Bytes) := do
  let bytes ← call (coded (codec.packb payload))
  send c bytes env.sending
  recv c env.answer

/-- The `try` around it. -/
def exchange (c : ℕ) (payload : Payload) (env : Exchange Bytes) :
    TransportM Bytes Message (Frame Bytes) :=
  except_connection (round_trip codec c payload env) do
    drop
    throw (.policy .failed)

/-- A call on the connection `c`; an error's text comes in place of an answer. -/
def request (c : ℕ) (payload : Payload) (env : Exchange Bytes) :
    TransportM Bytes Message Message := do
  let response ← exchange codec c payload env
  match response with
  | .text message => do
    drop
    throw (.policy (.server message))
  | .binary bytes => call (coded (codec.unpackb bytes))

/-- `infer` -/
def Transport.infer (payload : Payload) (env : Exchange Bytes) :
    TransportM Bytes Message Message := do
  let t ← get
  if t.ws = none then reconnect codec env.opening
  let t ← get
  match t.ws with
  | none => throw .other
  | some c => request codec c payload env

end Transport

/-! ## Requests and answers -/

section Law

variable {Payload Bytes Message : Type}

/-- The server answers only what it got. -/
def Transport.Fair (t : Transport Bytes Message) : Prop :=
  ∀ (c : ℕ) (conn : Connection Bytes), t.connections[c]? = some conn →
    conn.frames.length ≤ conn.requests.length + 1

/-- Of the connection that is kept, the metadata frame and all answers were received. -/
structure Transport.Idle (t : Transport Bytes Message) : Prop where
  fair : t.Fair
  settled : ∀ c, t.ws = some c → ∃ conn : Connection Bytes, t.connections[c]? = some conn ∧
    conn.received = conn.requests.length + 1

/-- A message was unpacked from the answer to a request that was made of this payload; and neither
the request nor the answer was there before. -/
structure Answered (codec : Codec Payload Bytes Message) (before after : Transport Bytes Message)
    (payload : Payload) (message : Message) : Prop where
  paired : ∃ (c k : ℕ) (bytes answer : Bytes) (conn : Connection Bytes),
    codec.packb payload = some bytes ∧ after.connections[c]? = some conn ∧ conn.requests[k]? = some bytes ∧
    conn.frames[k + 1]? = some (.binary answer) ∧ codec.unpackb answer = some message ∧
    ∀ old : Connection Bytes, before.connections[c]? = some old →
      old.requests.length ≤ k ∧ old.frames.length ≤ k + 1

variable {t : Transport Bytes Message}

/-! ### The server's steps -/

theorem on_get {c i : ℕ} {change : Connection Bytes → Connection Bytes} :
    (t.on c change).connections[i]? =
      if c = i then t.connections[i]?.map change else t.connections[i]? := by
  unfold Transport.on
  rw [List.getElem?_modify]
  by_cases h : c = i
  · simp [h]
  · simp [h]

/-- A change of one connection that the server can answer for. -/
theorem Transport.Fair.on (h : t.Fair) {c : ℕ} {change : Connection Bytes → Connection Bytes}
    (hchange : ∀ conn, conn.frames.length ≤ conn.requests.length + 1 →
      (change conn).frames.length ≤ (change conn).requests.length + 1) : (t.on c change).Fair := by
  intro i conn hconn
  rw [on_get] at hconn
  split_ifs at hconn
  · obtain ⟨old, hold, rfl⟩ := Option.map_eq_some_iff.mp hconn
    exact hchange old (h i old hold)
  · exact h i conn hconn

theorem serve_fair (conn : Connection Bytes) (frame : Frame Bytes)
    (h : conn.frames.length ≤ conn.requests.length + 1) :
    (conn.serve frame).frames.length ≤ (conn.serve frame).requests.length + 1 := by
  unfold Connection.serve
  split_ifs with hdue
  · dsimp only
    rw [List.length_append, List.length_singleton]
    omega
  · exact h

theorem serve_keeps (conn : Connection Bytes) (frame : Frame Bytes) :
    (conn.serve frame).received = conn.received ∧
      (conn.serve frame).requests = conn.requests := by
  unfold Connection.serve
  split_ifs
  · exact ⟨rfl, rfl⟩
  · exact ⟨rfl, rfl⟩

/-- Only the server's frames are new. -/
structure Later (t t' : Transport Bytes Message) : Prop where
  fair : t'.Fair
  ws : t'.ws = t.ws
  get : ∀ (c : ℕ) (conn : Connection Bytes), t.connections[c]? = some conn →
    ∃ conn' : Connection Bytes, t'.connections[c]? = some conn' ∧ conn'.received = conn.received ∧
      conn'.requests = conn.requests

theorem serve_later (h : t.Fair) (sent : ℕ × Frame Bytes) : Later t (t.serve sent) where
  fair := h.on fun conn hconn => serve_fair conn sent.2 hconn
  ws := rfl
  get c conn hconn := by
    unfold Transport.serve
    rw [on_get, hconn]
    split_ifs
    · exact ⟨conn.serve sent.2, rfl, serve_keeps conn sent.2⟩
    · exact ⟨conn, rfl, rfl, rfl⟩

/-- Frames arrive one after another, and the order in which a connection sent them is kept. -/
theorem serve_all_later (served : List (ℕ × Frame Bytes)) :
    ∀ {t : Transport Bytes Message}, t.Fair → Later t (served.foldl Transport.serve t) := by
  induction served with
  | nil =>
    intro t h
    exact ⟨h, rfl, fun c conn hconn => ⟨conn, hconn, rfl, rfl⟩⟩
  | cons sent rest ih =>
    intro t h
    have hone := serve_later h sent
    have hrest := ih hone.fair
    refine ⟨hrest.fair, hrest.ws.trans hone.ws, fun c conn hconn => ?_⟩
    obtain ⟨conn', hconn', hreceived, hrequests⟩ := hone.get c conn hconn
    obtain ⟨conn'', hconn'', hreceived', hrequests'⟩ := hrest.get c conn' hconn'
    exact ⟨conn'', hconn'', hreceived'.trans hreceived, hrequests'.trans hrequests⟩

theorem Later.idle {t' : Transport Bytes Message} (h : Later t t') (hidle : t.Idle) : t'.Idle where
  fair := h.fair
  settled c hc := by
    rw [h.ws] at hc
    obtain ⟨conn, hconn, hreceived⟩ := hidle.settled c hc
    obtain ⟨conn', hconn', hsame, hrequests⟩ := h.get c conn hconn
    refine ⟨conn', hconn', ?_⟩
    rw [hsame, hrequests]
    exact hreceived

/-! ### The client's steps -/

/-- What was received is the frame that was due, or nothing was and the library raised. -/
structure Received (t : Transport Bytes Message) (c : ℕ) (conn : Connection Bytes)
    (r : Except Raised (Frame Bytes)) (t' : Transport Bytes Message) : Prop where
  fair : t'.Fair
  ws : t'.ws = t.ws
  ok : ∀ frame, r = .ok frame → ∃ conn' : Connection Bytes, t'.connections[c]? = some conn' ∧
    conn'.requests = conn.requests ∧ conn'.received = conn.requests.length + 1 ∧
    conn'.frames[conn.requests.length]? = some frame
  error : ∀ e, r = .error e → e = .connection

/-- With one frame due, that is the frame received, or the library has raised the error of a
connection. -/
theorem recv_spec (hfair : t.Fair) {c : ℕ} {conn : Connection Bytes}
    (hconn : t.connections[c]? = some conn) (hdue : conn.received = conn.requests.length)
    (wait : Wait Bytes) : Ensures (recv c wait) t fun r t' => Received t c conn r t' := by
  unfold recv
  rw [ensures_bind, ensures_update]
  dsimp only
  have hlater := serve_all_later wait.served hfair
  generalize wait.served.foldl Transport.serve t = u at hlater
  obtain ⟨conn', hconn', hreceived, hrequests⟩ := hlater.get c conn hconn
  rw [ensures_get_bind]
  have hraise : Ensures (throw .connection : TransportM Bytes Message (Frame Bytes)) u
      fun r t' => Received t c conn r t' := by
    rw [ensures_throw]
    refine ⟨hlater.fair, hlater.ws, ?_, ?_⟩
    · intro frame h
      contradiction
    · intro e h
      exact (Except.error.inj h).symm
  match hwait : wait.raises, hframe : u.connections[c]?.bind fun k => k.frames[k.received]? with
  | true, _ => exact hraise
  | false, none => exact hraise
  | false, some frame =>
    dsimp only
    rw [ensures_bind, ensures_update]
    dsimp only
    rw [ensures_pure]
    rw [hconn', Option.bind_some, hreceived, hdue] at hframe
    refine ⟨hlater.fair.on fun _ h => h, hlater.ws, ?_, ?_⟩
    · intro frame' h
      obtain rfl := Except.ok.inj h
      refine ⟨{ conn' with received := conn'.received + 1 }, ?_, hrequests, ?_, hframe⟩
      · rw [on_get, if_pos rfl, hconn']
        rfl
      · rw [← hdue, ← hreceived]
    · intro e h
      contradiction

/-- A connection of its own, of which the metadata frame was received. -/
structure Greeted (t t' : Transport Bytes Message) : Prop where
  ws : t'.ws = some t.connections.length
  get : ∃ conn : Connection Bytes, t'.connections[t.connections.length]? = some conn ∧
    conn.requests = [] ∧ conn.received = 1

theorem Greeted.idle {t' : Transport Bytes Message} (h : Greeted t t') (hfair : t'.Fair) :
    t'.Idle where
  fair := hfair
  settled c hc := by
    rw [h.ws] at hc
    obtain ⟨conn, hconn, hrequests, hreceived⟩ := h.get
    refine ⟨conn, ?_, ?_⟩
    · rw [← Option.some.inj hc]
      exact hconn
    · rw [hrequests, hreceived]
      rfl

/-- A new connection, of which nothing was received and on which nothing was asked, keeps the
transport fair. -/
theorem Transport.Fair.opened (hfair : t.Fair) (ws : Option ℕ) :
    Transport.Fair { t with connections := t.connections ++ [⟨[], 0, []⟩], ws := ws } := by
  intro c conn hconn
  change (t.connections ++ [⟨[], 0, []⟩])[c]? = some conn at hconn
  by_cases hlt : c < t.connections.length
  · rw [List.getElem?_append_left hlt] at hconn
    exact hfair c conn hconn
  · rw [List.getElem?_append_right (by omega), List.getElem?_singleton] at hconn
    split_ifs at hconn
    rw [← Option.some.inj hconn]
    exact Nat.zero_le _

variable (codec : Codec Payload Bytes Message)

/-- Either the library raised, or the metadata frame was received, whatever it was. -/
theorem open_spec (hfair : t.Fair) (opening : Opening Bytes) :
    Ensures (open_connection codec opening) t fun r t' =>
      t'.Fair ∧ (r = .error .connection ∨ Greeted t t' ∧ (r = .ok () ∨ r = .error .other)) := by
  unfold open_connection
  dsimp only
  by_cases hconnects : opening.connects = false
  · rw [if_pos hconnects, ensures_bind, ensures_throw]
    exact ⟨hfair, .inl rfl⟩
  rw [if_neg hconnects, ensures_get_bind, ensures_bind, ensures_update]
  dsimp only
  have hget : (t.connections ++ [(⟨[], 0, []⟩ : Connection Bytes)])[t.connections.length]? =
      some ⟨[], 0, []⟩ := by
    rw [List.getElem?_append_right (Nat.le_refl _), Nat.sub_self]
    rfl
  refine (recv_spec (hfair.opened (some t.connections.length)) hget rfl opening.metadata).bind ?_ ?_
  · intro frame t' h
    obtain ⟨conn, hconn, hrequests, hreceived, _⟩ := h.ok frame rfl
    have hgreeted : Greeted t t' := ⟨h.ws, conn, hconn, hrequests, hreceived⟩
    match hunpack : unpack codec frame with
    | none =>
      rw [ensures_bind, returns_call.ensures_iff]
      exact ⟨h.fair, .inr ⟨hgreeted, .inr rfl⟩⟩
    | some metadata =>
      rw [ensures_bind, returns_call.ensures_iff]
      exact ⟨h.fair, .inr ⟨⟨hgreeted.ws, hgreeted.get⟩, .inl rfl⟩⟩
  · intro e t' h
    rw [h.error e rfl]
    exact ⟨h.fair, .inl rfl⟩

/-- `except (OSError, ...)`: a handler that ensures the same, from what the exception left. -/
theorem ensures_except_connection {α : Type} {body handler : TransportM Bytes Message α}
    {P Q : Except Raised α → Transport Bytes Message → Prop} (hbody : Ensures body t P)
    (hkeep : ∀ r t', P r t' → r ≠ .error .connection → Q r t')
    (hhandler : ∀ t', P (.error .connection) t' → Ensures handler t' Q) :
    Ensures (except_connection body handler) t Q := by
  unfold except_connection
  rw [ensures_tryCatch]
  refine hbody.imp fun r t' h => ?_
  match r with
  | .ok a => exact hkeep (.ok a) t' h (by simp)
  | .error e =>
    by_cases he : e = .connection
    · rw [he] at h
      dsimp only
      rw [if_pos he]
      exact hhandler t' h
    · dsimp only
      rw [if_neg he, ensures_throw]
      exact hkeep (.error e) t' h (by simpa using he)

theorem drop_idle (hfair : t.Fair) : Transport.Idle { t with ws := none } where
  fair := hfair
  settled c hc := by contradiction

/-- Whatever the attempts come to, the constructor leaves nothing outstanding on any connection. -/
theorem connect_idle (attempts : List (Attempt Bytes)) :
    ∀ {t : Transport Bytes Message}, t.Idle →
      Ensures (connect codec attempts) t fun _ t' => t'.Idle := by
  induction attempts with
  | nil =>
    intro t h
    exact h
  | cons attempt rest ih =>
    intro t h
    unfold connect
    refine ensures_except_connection (open_spec codec h.fair attempt.opening) ?_ ?_
    · rintro r t' ⟨hfair, hraised | ⟨hgreeted, _⟩⟩ hr
      · exact absurd hraised hr
      · exact hgreeted.idle hfair
    · rintro t' ⟨hfair, _⟩
      unfold drop
      rw [ensures_bind, ensures_update]
      dsimp only
      match attempt.last with
      | some reason => exact drop_idle hfair
      | none => exact ih (drop_idle hfair)

/-- A reconnect that failed leaves no connection, or one that was greeted. -/
theorem reconnect_spec (hfair : t.Fair) (opening : Opening Bytes) :
    Ensures (reconnect codec opening) t fun r t' =>
      t'.Idle ∧ (r = .ok () → Greeted t t') := by
  unfold reconnect
  refine ensures_except_connection (open_spec codec hfair opening) ?_ ?_
  · rintro r t' ⟨hfair, hraised | ⟨hgreeted, _⟩⟩ hr
    · exact absurd hraised hr
    · exact ⟨hgreeted.idle hfair, fun _ => hgreeted⟩
  · rintro t' ⟨hfair, _⟩
    unfold drop
    rw [ensures_bind, ensures_update]
    dsimp only
    rw [ensures_throw]
    exact ⟨drop_idle hfair, fun h => by contradiction⟩

/-- A frame was received and answers the request that was made. -/
structure Exchanged (c : ℕ) (conn : Connection Bytes) (payload : Payload) (frame : Frame Bytes)
    (t' : Transport Bytes Message) : Prop where
  ws : t'.ws = some c
  get : ∃ (bytes : Bytes) (conn' : Connection Bytes), codec.packb payload = some bytes ∧
    t'.connections[c]? = some conn' ∧ conn'.requests = conn.requests ++ [bytes] ∧
    conn'.received = conn'.requests.length + 1 ∧
    conn'.frames[conn.requests.length + 1]? = some frame

/-- What a round trip leaves: it may leave the answer unreceived, but raises then. -/
structure RoundTrip (c : ℕ) (conn : Connection Bytes) (payload : Payload)
    (r : Except Raised (Frame Bytes)) (t' : Transport Bytes Message) : Prop where
  fair : t'.Fair
  idle : r ≠ .error .connection → t'.Idle
  ok : ∀ frame, r = .ok frame → Exchanged codec c conn payload frame t'

variable {codec}

theorem RoundTrip.raises {c : ℕ} {conn : Connection Bytes} {payload : Payload}
    (hfair : t.Fair) : RoundTrip codec c conn payload (.error .connection) t where
  fair := hfair
  idle h := absurd rfl h
  ok frame h := by contradiction

theorem Exchanged.idle {c : ℕ} {conn : Connection Bytes} {payload : Payload}
    {frame : Frame Bytes} (h : Exchanged codec c conn payload frame t) (hfair : t.Fair) :
    t.Idle where
  fair := hfair
  settled d hd := by
    obtain ⟨_, conn', _, hconn', _, hreceived, _⟩ := h.get
    rw [h.ws] at hd
    rw [← Option.some.inj hd]
    exact ⟨conn', hconn', hreceived⟩

variable {c : ℕ} {conn : Connection Bytes}

/-- After a request exactly its answer is due, so a receive that returns a frame returns the answer
to this request. -/
theorem sent_recv_spec (hws : t.ws = some c)
    (hconn : t.connections[c]? = some conn) (hreceived : conn.received = conn.requests.length + 1)
    {payload : Payload} {bytes : Bytes} (hpack : codec.packb payload = some bytes)
    (hsent : Transport.Fair (t.on c fun k => { k with requests := k.requests ++ [bytes] }))
    (answer : Wait Bytes) :
    Ensures (recv c answer : TransportM Bytes Message (Frame Bytes))
      (t.on c fun k => { k with requests := k.requests ++ [bytes] })
      fun r t' => RoundTrip codec c conn payload r t' := by
  have hget : (t.on c fun k => { k with requests := k.requests ++ [bytes] }).connections[c]? =
      some { conn with requests := conn.requests ++ [bytes] } := by
    rw [on_get, if_pos rfl, hconn]
    rfl
  have hdue : conn.received = (conn.requests ++ [bytes]).length := by
    rw [hreceived, List.length_append, List.length_singleton]
  refine (recv_spec hsent hget hdue answer).imp fun r t' hr => ?_
  match r with
  | .error e =>
    rw [hr.error e rfl]
    exact .raises hr.fair
  | .ok frame =>
    obtain ⟨conn', hconn', hrequests, hreceived', hframe⟩ := hr.ok frame rfl
    rw [← hrequests] at hreceived'
    rw [List.length_append, List.length_singleton] at hframe
    have hexchanged : Exchanged codec c conn payload frame t' :=
      ⟨hr.ws.trans hws, bytes, conn', hpack, hconn', hrequests, hreceived', hframe⟩
    refine ⟨hr.fair, fun _ => hexchanged.idle hr.fair, fun frame' hok => ?_⟩
    rw [← Except.ok.inj hok]
    exact hexchanged

theorem round_trip_spec (h : t.Idle) (hws : t.ws = some c)
    (hconn : t.connections[c]? = some conn) (hreceived : conn.received = conn.requests.length + 1)
    (payload : Payload) (env : Exchange Bytes) :
    Ensures (round_trip codec c payload env) t fun r t' =>
      RoundTrip codec c conn payload r t' := by
  unfold round_trip
  match hpack : codec.packb payload with
  | none =>
    rw [ensures_bind, returns_call.ensures_iff]
    refine ⟨h.fair, fun _ => h, fun frame hr => ?_⟩
    contradiction
  | some bytes =>
    rw [ensures_bind, returns_call.ensures_iff]
    dsimp only [coded]
    have hsent : Transport.Fair
        (t.on c fun k => { k with requests := k.requests ++ [bytes] }) := by
      refine h.fair.on fun k hk => ?_
      dsimp only
      rw [List.length_append]
      omega
    unfold send
    match env.sending with
    | .raises delivered =>
      dsimp only
      by_cases hgot : delivered = true
      · rw [if_pos hgot]
        exact .raises hsent
      · rw [if_neg hgot]
        exact .raises h.fair
    | .sent =>
      rw [ensures_bind, ensures_update]
      exact sent_recv_spec hws hconn hreceived hpack hsent env.answer

theorem exchange_spec (h : t.Idle) (hws : t.ws = some c)
    (hconn : t.connections[c]? = some conn) (hreceived : conn.received = conn.requests.length + 1)
    (payload : Payload) (env : Exchange Bytes) :
    Ensures (exchange codec c payload env) t fun r t' =>
      t'.Idle ∧ ∀ frame, r = .ok frame → Exchanged codec c conn payload frame t' := by
  unfold exchange
  refine ensures_except_connection (round_trip_spec h hws hconn hreceived payload env) ?_ ?_
  · intro r t' hr hne
    exact ⟨hr.idle hne, hr.ok⟩
  · intro t' hr
    unfold drop
    rw [ensures_bind, ensures_update]
    dsimp only
    rw [ensures_throw]
    refine ⟨drop_idle hr.fair, fun frame hok => ?_⟩
    contradiction

/-- On a connection with nothing outstanding, a request returns its own answer. -/
theorem request_spec (h : t.Idle) (hws : t.ws = some c) (hconn : t.connections[c]? = some conn)
    (hreceived : conn.received = conn.requests.length + 1) {before : Transport Bytes Message}
    (hnew : ∀ old : Connection Bytes, before.connections[c]? = some old →
      old.requests.length ≤ conn.requests.length ∧ old.frames.length ≤ conn.requests.length + 1)
    (payload : Payload) (env : Exchange Bytes) :
    Ensures (request codec c payload env) t fun r t' =>
      t'.Idle ∧ ∀ message, r = .ok message → Answered codec before t' payload message := by
  unfold request
  refine (exchange_spec h hws hconn hreceived payload env).bind ?_ ?_
  · rintro frame t' ⟨hidle, hexchanged⟩
    match frame with
    -- a text frame is the server's error, and the connection is dropped with it
    | .text message =>
      unfold drop
      dsimp only
      rw [ensures_bind, ensures_update]
      dsimp only
      rw [ensures_throw]
      refine ⟨drop_idle hidle.fair, fun message' hr => ?_⟩
      contradiction
    -- a binary frame is the answer, on the connection of the request
    | .binary answer =>
      dsimp only
      rw [returns_call.ensures_iff]
      refine ⟨hidle, fun message hr => ?_⟩
      obtain ⟨bytes, conn', hpack, hconn', hrequests, _, hframe⟩ := (hexchanged _ rfl).get
      have hunpack : codec.unpackb answer = some message := by
        match hcoded : codec.unpackb answer with
        | none =>
          rw [hcoded] at hr
          contradiction
        | some message' =>
          rw [hcoded] at hr
          rw [Except.ok.inj hr]
      refine ⟨c, conn.requests.length, bytes, answer, conn', hpack, hconn', ?_, hframe, hunpack,
        hnew⟩
      rw [hrequests, List.getElem?_append_right (Nat.le_refl _), Nat.sub_self]
      rfl
  · rintro e t' ⟨hidle, _⟩
    refine ⟨hidle, fun message hr => ?_⟩
    contradiction

/-- What `infer` returns was unpacked from the answer to its own request. -/
theorem infer_spec (h : t.Idle) (payload : Payload) (env : Exchange Bytes) :
    Ensures (Transport.infer codec payload env) t fun r t' =>
      t'.Idle ∧ ∀ message, r = .ok message → Answered codec t t' payload message := by
  unfold Transport.infer
  rw [ensures_get_bind]
  dsimp only
  match hws : t.ws with
  | none =>
    rw [if_pos rfl]
    refine (reconnect_spec codec h.fair env.opening).bind ?_ ?_
    · rintro _ u ⟨hidle, hok⟩
      have hgreeted := hok rfl
      obtain ⟨conn, hconn, hrequests, hreceived⟩ := hgreeted.get
      rw [ensures_get_bind, hgreeted.ws]
      refine request_spec hidle hgreeted.ws hconn ?_ ?_ payload env
      · rw [hrequests, hreceived]
        rfl
      · intro old hold
        rw [List.getElem?_eq_none (Nat.le_refl _)] at hold
        contradiction
    · rintro e u ⟨hidle, _⟩
      refine ⟨hidle, fun message hr => ?_⟩
      contradiction
  | some c =>
    rw [if_neg (by simp), ensures_get_bind, hws]
    obtain ⟨conn, hconn, hreceived⟩ := h.settled c hws
    refine request_spec h hws hconn hreceived ?_ payload env
    intro old hold
    rw [hconn] at hold
    obtain rfl := Option.some.inj hold
    exact ⟨Nat.le_refl _, h.fair c conn hconn⟩

end Law

end DualFlexivControl.Policy.Client

/-
A remote policy: `RemotePolicy` of `policy/client.py`, the OpenPI adapter over the websocket
transport.

A call encodes the observation, which keeps its state for the holds, sends the payload and decodes
the response. The theorem is about any sequence of calls and anything the server and the network
do before, during and after them: the actions a call returns were decoded from the answer to its
own request, with the holds of its own observation.
-/
import DualFlexivControl.Lib.Runs
import DualFlexivControl.Policy.Adapter
import DualFlexivControl.Policy.Websocket

set_option autoImplicit false

namespace DualFlexivControl.Policy.Client

open Effect

/-- `COMM_SENT`, `COMM_RECV` and `COMM_ERROR`. -/
inductive Comm
  | sent
  | recv
  | error
  deriving DecidableEq, Repr

/-- What a call raises: the adapter's exception or the transport's. -/
inductive ClientError
  | adapter (error : AdapterError)
  | transport (error : Raised)
  deriving DecidableEq, Repr

/-- The policy's variables, and what its hook was told. -/
structure RemotePolicy (Value F32 Bytes : Type) where
  adapter : Adapter F32
  transport : Transport Bytes (Response Value)
  seq : ℕ
  comm : List (Comm × ℕ)

/-- A call of `infer`, and what happens while it runs. -/
structure Inference (Value Bytes : Type) where
  observation : List (String × Value)
  env : Exchange Bytes

/-- A call, a frame that arrives between calls, and `close`. -/
inductive Happening (Value Bytes : Type)
  | infer (call : Inference Value Bytes)
  | serve (sent : ℕ × Frame Bytes)
  | close

section Remote

variable {Value Pixels F32 F64 Bytes : Type} [Zero F32] [Zero F64]
  (py : Runtime Value Pixels F32 F64) (cfg : OpenPIEndpointCfg F64)
  (codec : Codec (List (String × Wire Value Pixels F32)) Bytes (Response Value))

namespace RemotePolicy

/-- A method of the policy. -/
abbrev M (Value F32 Bytes : Type) := Effect ClientError (RemotePolicy Value F32 Bytes)

/-- The policy of a connected transport, or what the transport's constructor raised. -/
def new (attempts : List (Attempt Bytes)) : Except Raised (RemotePolicy Value F32 Bytes) :=
  match exec (connect codec attempts) ⟨[], none, none⟩ with
  | (.ok (), transport) => .ok ⟨⟨none⟩, transport, 0, []⟩
  | (.error e, _) => .error e

def on_adapter {α : Type} (x : AdapterM F32 α) : M Value F32 Bytes α :=
  zoom adapter (fun adapter p => { p with adapter := adapter }) .adapter x

def on_transport {α : Type} (x : TransportM Bytes (Response Value) α) : M Value F32 Bytes α :=
  zoom transport (fun transport p => { p with transport := transport }) .transport x

/-- `_emit`, to a hook that is there. -/
def emit (kind : Comm) (seq : ℕ) : M Value F32 Bytes Unit :=
  update fun p => { p with comm := p.comm ++ [(kind, seq)] }

/-- `infer` -/
def infer (call : Inference Value Bytes) : M Value F32 Bytes (List (List F64)) := do
  let payload ← on_adapter (encode_request py cfg call.observation)
  update fun p => { p with seq := p.seq + 1 }
  let p ← get
  emit .sent p.seq
  let response ← tryCatch (on_transport (Transport.infer codec payload call.env)) fun e => do
    emit .error p.seq
    throw e
  emit .recv p.seq
  on_adapter (decode_actions py cfg response)

def step (p : RemotePolicy Value F32 Bytes) : Happening Value Bytes → RemotePolicy Value F32 Bytes
  | .infer call => (exec (infer py cfg codec call) p).2
  | .serve sent => { p with transport := p.transport.serve sent }
  | .close => (exec (on_transport drop) p).2

end RemotePolicy

/-! ## The law -/

/-- Actions decoded from the server's answer to a call's own payload, with holds from the state of
the call's own observation. -/
structure Paired (before after : RemotePolicy Value F32 Bytes) (observation : List (String × Value))
    (actions : List (List F64)) : Prop where
  paired : ∃ payload dfc_state message,
    (exec (encode_request py cfg observation) before.adapter).1 = .ok payload ∧
    Answered codec before.transport after.transport payload message ∧
    dfc_state_of py observation = .ok dfc_state ∧
    (exec (decode_actions py cfg message) ⟨some dfc_state⟩).1 = .ok actions

variable {py cfg codec}

omit [Zero F64] in
/-- An encoded observation leaves its state for the holds, and one that is refused leaves those of
the observation before. -/
theorem encode_request_holds (adapter : Adapter F32) (observation : List (String × Value)) :
    Ensures (encode_request py cfg observation) adapter fun r adapter' => ∀ payload,
      r = .ok payload → (exec (encode_request py cfg observation) adapter).1 = .ok payload ∧
        ∃ dfc_state, dfc_state_of py observation = .ok dfc_state ∧ adapter' = ⟨some dfc_state⟩ := by
  unfold Ensures
  intro payload hr
  refine ⟨hr, ?_⟩
  rcases encode_request_cases py cfg adapter observation with
    ⟨e, hexec⟩ | ⟨dfc_state, sent, hdfc, hexec, -⟩
  · rw [hexec] at hr
    contradiction
  · rw [hexec]
    exact ⟨dfc_state, hdfc, rfl⟩

omit [Zero F32] in
/-- After the answer only the adapter decides: the transport has nothing left outstanding, whatever
becomes of the actions. -/
theorem decode_spec (p : RemotePolicy Value F32 Bytes) (message : Response Value) :
    Ensures (RemotePolicy.on_adapter (decode_actions py cfg message) : RemotePolicy.M _ _ Bytes _) p
      fun r p' => p'.transport = p.transport ∧ ∀ actions, r = .ok actions →
        (exec (decode_actions py cfg message) p.adapter).1 = .ok actions := by
  have hdecode : Ensures (decode_actions py cfg message) p.adapter
      fun r _ => r = (exec (decode_actions py cfg message) p.adapter).1 := rfl
  refine hdecode.zoom ?_ ?_
  · intro actions adapter hr
    refine ⟨rfl, fun actions' hok => ?_⟩
    rw [← hr, Except.ok.inj hok]
  · intro e adapter _
    refine ⟨rfl, fun actions hok => ?_⟩
    contradiction

theorem remote_infer_spec {p : RemotePolicy Value F32 Bytes} (h : p.transport.Idle)
    (call : Inference Value Bytes) :
    Ensures (RemotePolicy.infer py cfg codec call) p fun r p' =>
      p'.transport.Idle ∧
        ∀ actions, r = .ok actions → Paired py cfg codec p p' call.observation actions := by
  unfold RemotePolicy.infer
  rw [ensures_bind]
  refine (encode_request_holds p.adapter call.observation).zoom ?_ ?_
  · intro payload adapter hencode
    obtain ⟨hpayload, dfc_state, hdfc, rfl⟩ := hencode payload rfl
    dsimp only
    rw [ensures_bind, ensures_update]
    dsimp only
    rw [ensures_get_bind, ensures_bind]
    unfold RemotePolicy.emit
    rw [ensures_update]
    dsimp only
    rw [ensures_bind, ensures_tryCatch]
    unfold RemotePolicy.on_transport
    refine Ensures.zoom (infer_spec h payload call.env) ?_ ?_
    · -- the answer is to this request, whose observation was encoded last
      rintro message transport ⟨hidle, hanswered⟩
      dsimp only
      rw [ensures_bind, ensures_update]
      dsimp only
      refine (decode_spec _ message).imp fun r p' hr => ?_
      obtain ⟨htransport, hactions⟩ := hr
      rw [htransport]
      refine ⟨hidle, fun actions hok => ⟨payload, dfc_state, message, hpayload, ?_, hdfc, ?_⟩⟩
      · rw [htransport]
        exact hanswered message rfl
      · exact hactions actions hok
    · rintro e transport ⟨hidle, _⟩
      dsimp only
      rw [ensures_bind, ensures_update]
      dsimp only
      rw [ensures_throw]
      refine ⟨hidle, fun actions hok => ?_⟩
      contradiction
  · intro e adapter _
    refine ⟨h, fun actions hok => ?_⟩
    contradiction

omit [Zero F32] [Zero F64] in
theorem new_idle {attempts : List (Attempt Bytes)} {p : RemotePolicy Value F32 Bytes}
    (h : RemotePolicy.new codec attempts = .ok p) : p.transport.Idle := by
  have hnone : Transport.Idle (⟨[], none, none⟩ : Transport Bytes (Response Value)) := by
    refine ⟨?_, ?_⟩
    · intro c conn hconn
      contradiction
    · intro c hc
      contradiction
  have hconnect := connect_idle codec attempts hnone
  unfold Ensures at hconnect
  unfold RemotePolicy.new at h
  generalize exec (connect codec attempts) ⟨[], none, none⟩ = out at h hconnect
  obtain ⟨r, transport⟩ := out
  match r with
  | .error e => contradiction
  | .ok () =>
    rw [← Except.ok.inj h]
    exact hconnect

/-- Whatever happens, nothing is outstanding afterwards. -/
theorem step_idle (p : RemotePolicy Value F32 Bytes) (e : Happening Value Bytes)
    (h : p.transport.Idle) : (RemotePolicy.step py cfg codec p e).transport.Idle := by
  match e with
  | .infer call => exact (remote_infer_spec h call).1
  | .serve sent => exact (serve_later h.fair sent).idle h
  | .close => exact drop_idle h.fair

/-- In any sequence of calls, what a call returns is the answer to its own request, with the holds
of its own observation. -/
theorem infer_returns_own_answer (py : Runtime Value Pixels F32 F64) (cfg : OpenPIEndpointCfg F64)
    (codec : Codec (List (String × Wire Value Pixels F32)) Bytes (Response Value))
    (attempts : List (Attempt Bytes)) (p : RemotePolicy Value F32 Bytes)
    (hnew : RemotePolicy.new codec attempts = .ok p) (events : List (Happening Value Bytes)) :
    Runs.Each (RemotePolicy.step py cfg codec) Happening.infer p events fun before call =>
      ∀ actions, (exec (RemotePolicy.infer py cfg codec call) before).1 = .ok actions →
        Paired py cfg codec before (exec (RemotePolicy.infer py cfg codec call) before).2
          call.observation actions := by
  have hvalid : Runs.Valid (RemotePolicy.step py cfg codec) (fun _ _ => True) p events :=
    Runs.Valid.of_forall (fun _ _ => trivial) events p
  have hstep : ∀ (p : RemotePolicy Value F32 Bytes) (e : Happening Value Bytes), True →
      p.transport.Idle → (RemotePolicy.step py cfg codec p e).transport.Idle :=
    fun p e _ h => step_idle p e h
  refine Runs.each_of_inv hstep (fun before call h => ?_) (new_idle hnew) hvalid
  exact (remote_infer_spec h call).2

end Remote

/-! ## A late answer -/

/-- Payloads and responses, not serialized. -/
abbrev Plain : Type := List (String × Wire (Option ℤ) Unit ℤ) ⊕ Response (Option ℤ)

def plain : Codec (List (String × Wire (Option ℤ) Unit ℤ)) Plain (Response (Option ℤ)) :=
  ⟨fun payload => some (.inl payload), Sum.getRight?⟩

/-- A response with one action. -/
def response_of (action : ℤ) : Response (Option ℤ) := .dict [(.str "actions", some action)]

/-- A connection whose metadata frame arrives at once. -/
def opens (c : ℕ) : Opening Plain := ⟨true, ⟨[(c, .binary (.inr (.dict [])))], false⟩⟩

/-- A request that is sent, and what arrives before the timeout. -/
def inference (state : ℤ) (c : ℕ) (answers : List ℤ) : Inference (Option ℤ) Plain :=
  ⟨[("observation.state", some state), ("task", none)],
    ⟨opens c, .sent, ⟨answers.map fun a => (c, .binary (.inr (response_of a))), false⟩⟩⟩

/-- A request times out, its answer comes late, and the next call reconnects. -/
def late_answer : List (Happening (Option ℤ) Plain) :=
  [.infer (inference 7 0 []), .serve (0, .binary (.inr (response_of 1))),
    .infer (inference 8 1 [2])]

/-- The second call returns the answer to its own request, though that of the first one came in
between. -/
theorem late_answer_is_not_returned :
    ∃ p, RemotePolicy.new plain [⟨opens 0, none⟩] = .ok p ∧
      (exec (RemotePolicy.infer single (undeclared 0) plain (inference 8 1 [2]))
        (Runs.run (RemotePolicy.step single (undeclared 0) plain) p (late_answer.take 2))).1 =
          .ok [[2]] ∧
      Runs.Each (RemotePolicy.step single (undeclared 0) plain) Happening.infer p late_answer
        fun before call => ∀ actions,
          (exec (RemotePolicy.infer single (undeclared 0) plain call) before).1 = .ok actions →
            Paired single (undeclared 0) plain before
              (exec (RemotePolicy.infer single (undeclared 0) plain call) before).2
              call.observation actions :=
  ⟨_, rfl, rfl, infer_returns_own_answer single (undeclared 0) plain [⟨opens 0, none⟩] _ rfl
    late_answer⟩

end DualFlexivControl.Policy.Client

import NgapProcedures.Proofs.Engine.Announcements
import NgapProcedures.Proofs.Engine.Silence

/-! What a recording gateway has recorded. It keeps what it is handed while it is open, so that its
record is what was announced in these times. A launch has handed its request over when it returns,
and but for launches and ticks no operation reaches the gateway. -/

namespace NgapProcedures

namespace Operation

def request? : Operation → Option PeerMessage
  | .setup request | .connect _ request => some ⟨request.entity, ngSetup.requestPdu request.message⟩
  | .update request => some ⟨request.entity, ranConfigurationUpdate.requestPdu request.message⟩
  | _ => none

/-- operations that send: launches and ticks -/
def Sending : Operation → Prop
  | .setup _ | .update _ | .connect .. | .advance | .advanceBy _ => True
  | _ => False

end Operation

namespace Engine

section

variable {γ : Type} [Gateway γ]

theorem Steady.sends_eq_nil {e : Engine γ} (h : e.Steady) {op : Operation} (hop : ¬op.Sending) :
    e.sends op = [] := by
  cases op with
  | message m => exact handleMessageSends_eq_nil h.quiet m
  | cancel id => exact (cancelSends_eq_nil h.quiet id).2
  | transportLost => exact sends_transportLost h.quiet
  | remove entity => rfl
  | drainEvents => rfl
  | _ => exact absurd trivial hop

/-- who returns a handle has sent its first request -/
theorem Steady.sends_of_handle {e : Engine γ} (h : e.Steady) {op : Operation} {handle : Handle}
    (hop : (e.step op).1 = .handle handle) :
    ∃ request, op.request? = some request ∧ e.sends op = [(e.started, request)] := by
  have hok {launched : Except LaunchError Handle} (hl : Answer.ofLaunch launched = .handle handle) :
      launched = .ok handle := by
    cases launched with
    | error error => simp [Answer.ofLaunch] at hl
    | ok h => simpa [Answer.ofLaunch] using hl
  cases op with
  | setup request =>
    have hl : (e.launchSetup request).1 = .ok handle := hok hop
    refine ⟨_, rfl, (launchSetupSends_eq h.quiet request).trans ?_⟩
    rw [hl]
    rfl
  | update request =>
    have hl : (e.launchConfigUpdate request).1 = .ok handle := hok hop
    refine ⟨_, rfl, (launchRetrySends_eq h.quiet fun id => Machine.fresh_update id request).trans ?_⟩
    rw [launchConfigUpdate] at hl
    rw [hl]
    rfl
  | connect controller request =>
    have hl : (e.launchConnection controller request).1 = .ok handle := hok hop
    refine ⟨_, rfl, (h.launchConnectionSends_eq controller request).trans ?_⟩
    unfold launchConnection at hl
    split at hl
    · simp at hl
    · next hidle =>
      rw [if_neg hidle, launchSetupSends_eq h.quiet]
      rcases hs : e.launchSetup request with ⟨error | setup, e₁⟩
      · simp [hs] at hl
      · rfl
  | _ => simp [Engine.step] at hop

/-- The messages announced while the gateway was open. Before each operation it is closed or opened,
and what the ledger knows is carried on in either case. -/
def announcedWhileOpen (close : Bool → γ → γ) (e : Engine γ) (known : Ledger) :
    List (Bool × Operation) → List (Option PeerMessage)
  | [] => []
  | (closed, op) :: rest =>
    let e := e.rewire (close closed)
    let (messages, known) := op.announce known (e.logged op)
    (if closed then [] else messages) ++ announcedWhileOpen close (e.step op).2 known rest

/-- the timeline of operations before each of which the gateway is closed or opened -/
def switching (close : Bool → γ → γ) (operations : List (Bool × Operation)) : Timeline γ :=
  operations.map fun x => (close x.1, x.2)

end

theorem sendAll_recording (g : RecordingGateway) (messages : List PeerMessage) :
    sendAll g messages = { g with sent := g.sent ++ if g.closed then [] else messages } := by
  induction messages generalizing g with
  | nil => simp [sendAll]
  | cons m rest ih =>
    have hcons : sendAll g (m :: rest) = sendAll (Gateway.send g m).2 rest := rfl
    rw [hcons, ih]
    cases h : g.closed <;> simp [Gateway.send, h]

/-- `record` shows a recording gateway inside `γ`, which takes part in all that is done to it -/
structure Records {γ : Type} [Gateway γ] (record : γ → RecordingGateway) (close : Bool → γ → γ) :
    Prop where
  send : ∀ g m, record (Gateway.send g m).2 = (Gateway.send (record g) m).2
  close : ∀ closed g, record (close closed g) = (record g).setClosed closed

section

variable {γ : Type} [Gateway γ] {record : γ → RecordingGateway} {close : Bool → γ → γ}

theorem Records.sendAll (h : Records record close) (g : γ) (messages : List PeerMessage) :
    record (sendAll g messages) = Engine.sendAll (record g) messages := by
  induction messages generalizing g with
  | nil => rfl
  | cons m rest ih =>
    exact (ih (Gateway.send g m).2).trans (congrArg (Engine.sendAll · rest) (h.send g m))

theorem Records.sent_play (h : Records record close) {e : Engine γ} {known : Ledger}
    (hk : Known known e) (operations : List (Bool × Operation)) :
    (record (e.play (switching close operations)).2.gateway).sent.map some =
      (record e.gateway).sent.map some ++ e.announcedWhileOpen close known operations := by
  induction operations generalizing e known with
  | nil => simp [switching, play, announcedWhileOpen]
  | cons x rest ih =>
    obtain ⟨closed, op⟩ := x
    let e₁ := e.rewire (close closed)
    have hk₁ : Known known e₁ := hk
    obtain ⟨hsent, hk₂⟩ := hk₁.step op
    have hgateway : record (e₁.step op).2.gateway =
        Engine.sendAll ((record e.gateway).setClosed closed) ((e₁.sends op).map (·.2)) := by
      rw [gateway_step, h.sendAll]
      exact congrArg (Engine.sendAll · _) (h.close closed e.gateway)
    refine (ih hk₂).trans ?_
    rw [hgateway, sendAll_recording]
    have hannounced : (op.announce known (e₁.logged op)).1 = ((e₁.sends op).map (·.2)).map some := by
      rw [hsent, List.map_map]
      rfl
    have hcons : e.announcedWhileOpen close known ((closed, op) :: rest) =
        (if closed then [] else (op.announce known (e₁.logged op)).1) ++
          announcedWhileOpen close (e₁.step op).2 (op.announce known (e₁.logged op)).2 rest := rfl
    rw [hcons, hannounced]
    cases closed <;> simp [RecordingGateway.setClosed]

/-- The record is what was announced while the gateway was open, message by message. At any time
what neither launches nor ticks leaves the gateway as it is, and a launch that returns a handle has
handed over the first request and nothing else. -/
structure Accounted (record : γ → RecordingGateway) (close : Bool → γ → γ) (e : Engine γ)
    (operations : List (Bool × Operation)) : Prop where
  recorded : (record (e.play (switching close operations)).2.gateway).sent.map some =
    e.announcedWhileOpen close (fun _ => none) operations
  silent : ∀ op, ¬op.Sending → ((e.play (switching close operations)).2.step op).2.gateway =
    (e.play (switching close operations)).2.gateway
  prompt : ∀ op handle, ((e.play (switching close operations)).2.step op).1 = .handle handle →
    ∃ request, op.request? = some request ∧
      ((e.play (switching close operations)).2.step op).2.gateway =
        (Gateway.send (e.play (switching close operations)).2.gateway request).2

theorem Records.accounted (h : Records record close) (gateway : γ)
    (hempty : (record gateway).sent = []) (ids : IdSource) (config : EngineConfig)
    (operations : List (Bool × Operation)) :
    Accounted record close (Engine.new gateway ids config) operations := by
  have hknown : Known (fun _ => none) (Engine.new gateway ids config) := fun hq => by
    simp [Engine.new] at hq
  have hsteady := (steady_new gateway ids config).play (switching close operations)
  refine ⟨?_, fun op hop => ?_, fun op handle hop => ?_⟩
  · have hsent : (record (Engine.new gateway ids config).gateway).sent = [] := hempty
    rw [h.sent_play hknown, hsent]
    rfl
  · rw [gateway_step, hsteady.sends_eq_nil hop]
    rfl
  · obtain ⟨request, hrequest, hsends⟩ := hsteady.sends_of_handle hop
    refine ⟨request, hrequest, ?_⟩
    rw [gateway_step, hsends]
    rfl

end

/-- For a recording gateway, traced or not, closed and opened between any operations: its record
agrees with the announcements. -/
theorem accounted_after (ids : IdSource) (config : EngineConfig)
    (operations : List (Bool × Operation)) :
    Accounted (fun g : RecordingGateway => g) (fun closed g => g.setClosed closed)
        (Engine.new {} ids config) operations ∧
      Accounted (fun g : TracedGateway RecordingGateway => g.inner)
        (fun closed g => ⟨g.inner.setClosed closed⟩) (Engine.new ⟨{}⟩ ids config) operations := by
  have hplain : Records (fun g : RecordingGateway => g) (fun closed g => g.setClosed closed) :=
    ⟨fun _ _ => rfl, fun _ _ => rfl⟩
  have htraced : Records (fun g : TracedGateway RecordingGateway => g.inner)
      (fun closed g => ⟨g.inner.setClosed closed⟩) := ⟨fun _ _ => rfl, fun _ _ => rfl⟩
  exact ⟨hplain.accounted _ rfl ids config operations, htraced.accounted _ rfl ids config operations⟩

/-- of three requests the second is lost, since the gateway is closed when its wait is over -/
example :
    let body : NgSetupRequest := ⟨⟨"00101", 411, 22⟩, none, [⟨7, ["00101"]⟩], .v128⟩
    let refusal : Operation :=
      .message ⟨⟨"amf-1"⟩, .ngSetupFailure ⟨⟨.misc, "unspecified"⟩, some .s1⟩⟩
    (Engine.new {} (.sequential) { tick := .ofSeconds 1 }).announcedWhileOpen
      (fun closed (g : RecordingGateway) => g.setClosed closed) (fun _ => none)
      [(false, .setup ⟨⟨"amf-1"⟩, body, 2⟩), (false, refusal), (true, .advance), (false, refusal),
        (false, .advance)] =
      [some ⟨⟨"amf-1"⟩, .ngSetupRequest body⟩, some ⟨⟨"amf-1"⟩, .ngSetupRequest body⟩] := by
  decide +kernel

end Engine

end NgapProcedures

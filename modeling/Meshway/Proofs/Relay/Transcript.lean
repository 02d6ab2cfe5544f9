import Meshway.Proofs.Pump
import Meshway.Proofs.Socks.Grammar
set_option autoImplicit false

/-!
# What a relay tells its client (SPEC §4.5, §10.3 items 16 and 20)

A relay hears its client piece by piece, and while it does so it has written a
beginning of what the negotiation writes when everything is there at once.  When
the negotiation is over the answer stands behind that, and what follows is a
course of the pump alone.  Main statement: what the client was told is what the
negotiation wrote, then the answer, then what was read from the server; a
connection is asked for once, for a request that was understood; and the octets
behind the request are what reaches the server.
-/

namespace Meshway.Relay

open Socks (Spells)

variable {config : RelayConfig} {connect : String → UInt16 → Except RelayFault Unit}
  {client : Client} {streams ahead : Side → Bytes} {r : Socks.Request} {piece : Bytes}
  {calls : List Call} {clock : Clock} {s t : Situation}

/-! ## The answer -/

/-- What a client is told when a request was granted. -/
def success (r : Socks.Request) : Bytes :=
  Socks.Reply.succeeded.octets r.version none ++
    if r.command = .bind then Socks.Reply.succeeded.octets r.version none else []

/-- What a client that listens is answered. -/
theorem conclude_eq (hlistening : client.listening = true) (input : Bytes) :
    conclude client connect r input =
      if r.command = .udpAssociate then
        ⟨.finished (.error (.unsupportedCommand r.command)),
          Socks.Reply.commandNotSupported.octets r.version none, input, []⟩
      else match connect r.host r.port with
        | .error fault => ⟨.finished (.error fault), fault.reply.octets r.version none, input,
            [(r.host, r.port)]⟩
        | .ok () => ⟨.pumping .start, success r, input, [(r.host, r.port)]⟩ := by
  by_cases hudp : r.command = .udpAssociate
  · simp [conclude, answer, hudp, Dialogue.run, hlistening]
  · cases hconnect : connect r.host r.port with
    | error fault => simp [conclude, answer, hudp, Dialogue.run, hlistening, hconnect]
    | ok =>
      by_cases hbind : r.command = .bind
      · simp [conclude, answer, Dialogue.run, hlistening, hconnect, hbind, success]
      · simp [conclude, answer, hudp, Dialogue.run, hlistening, hconnect, hbind, success]

/-- What a relay makes of the end of a negotiation: what it does next, what it answers, and the
connections that it asks for. -/
inductive Outcome (connect : String → UInt16 → Except RelayFault Unit) :
    Progress RelayFault (Except Socks.Fault Socks.Request) → Relay → Bytes →
      List (String × UInt16) → Prop where
  | unheard {fault : IoFault} : Outcome connect (.failed fault)
      (.finished (.error (.handshake (.io fault)))) [] []
  | refused {fault : Socks.Fault} : Outcome connect (.finished (.error fault))
      (.finished (.error (.handshake fault))) [] []
  | unsupported {r : Socks.Request} (hcommand : r.command = .udpAssociate) :
      Outcome connect (.finished (.ok r)) (.finished (.error (.unsupportedCommand r.command)))
        (Socks.Reply.commandNotSupported.octets r.version none) []
  | unreachable {r : Socks.Request} {fault : RelayFault} (hcommand : r.command ≠ .udpAssociate)
      (hconnect : connect r.host r.port = .error fault) :
      Outcome connect (.finished (.ok r)) (.finished (.error fault))
        (fault.reply.octets r.version none) [(r.host, r.port)]
  | connected {r : Socks.Request} (hcommand : r.command ≠ .udpAssociate)
      (hconnect : connect r.host r.port = .ok ()) :
      Outcome connect (.finished (.ok r)) (.pumping .start) (success r) [(r.host, r.port)]

theorem Outcome.relay_cases
    {progress : Progress RelayFault (Except Socks.Fault Socks.Request)} {relay : Relay}
    {answer : Bytes} {targets : List (String × UInt16)}
    (h : Outcome connect progress relay answer targets) :
    relay = .pumping .start ∨ ∃ fault, relay = .finished (.error fault) := by
  cases h with
  | connected => exact .inl rfl
  | unheard | refused | unsupported | unreachable => exact .inr ⟨_, rfl⟩

/-- A negotiation that is over is answered, and what it left unread stays so. -/
theorem negotiate_eq_of_over {rest : Socks.Negotiation RelayFault}
    (hlistening : client.listening = true)
    (hover : ∀ d, (rest.run client connect piece).progress ≠ .waiting d) :
    ∃ relay answer targets, Outcome connect (rest.run client connect piece).progress relay answer
        targets ∧
      negotiate client connect rest piece = ⟨relay,
        (rest.run client connect piece).written ++ answer,
        (rest.run client connect piece).unread,
        (rest.run client connect piece).targets ++ targets⟩ := by
  cases hprogress : (rest.run client connect piece).progress with
  | waiting d => exact absurd hprogress (hover d)
  | failed fault => exact ⟨_, _, _, .unheard, by simp [negotiate, hprogress]⟩
  | finished result =>
    cases result with
    | error fault => exact ⟨_, _, _, .refused, by simp [negotiate, hprogress]⟩
    | ok r =>
      by_cases hudp : r.command = .udpAssociate
      · exact ⟨_, _, _, .unsupported hudp, by
          simp [negotiate, hprogress, conclude_eq hlistening, hudp]⟩
      · cases hconnect : connect r.host r.port with
        | error fault => exact ⟨_, _, _, .unreachable hudp hconnect, by
            simp [negotiate, hprogress, conclude_eq hlistening, hudp, hconnect]⟩
        | ok => exact ⟨_, _, _, .connected hudp hconnect, by
            simp [negotiate, hprogress, conclude_eq hlistening, hudp, hconnect]⟩

/-! ## Hearing -/

/-- What the negotiation comes to when everything that the client offers is there at once. -/
def exchange (connect : String → UInt16 → Except RelayFault Unit) (streams : Side → Bytes) :
    Exchange RelayFault (Except Socks.Fault Socks.Request) :=
  Dialogue.run ⟨streams .client, true, true⟩ connect Socks.negotiate (streams .client)

/-- What is known while the client is heard: what is ahead takes the negotiation where it would have
come with everything at once. -/
structure Hearing (connect : String → UInt16 → Except RelayFault Unit) (streams : Side → Bytes)
    (calls : List Call) (rest : Socks.Negotiation RelayFault) (ahead : Side → Bytes) : Prop where
  exchange_eq : exchange connect streams =
    { rest.run ⟨streams .client, true, true⟩ connect (ahead .client) with
      written := written .client calls ++
        (rest.run ⟨streams .client, true, true⟩ connect (ahead .client)).written }
  confined : ∃ most, rest.Confined most
  asked_eq : asked calls = []
  written_server : written .server calls = []
  taken_server : taken .server calls = []
  ahead_server : ahead .server = streams .server

theorem hearing_start : Hearing connect streams [] Socks.negotiate streams where
  exchange_eq := rfl
  confined := ⟨520, Socks.confined_negotiate⟩
  asked_eq := rfl
  written_server := rfl
  taken_server := rfl
  ahead_server := rfl

/-- How far a relay has come that started with nothing. -/
inductive Stage (config : RelayConfig) (connect : String → UInt16 → Except RelayFault Unit)
    (streams : Side → Bytes) : List Call → Situation → Prop where
  | hearing {calls : List Call} {rest : Socks.Negotiation RelayFault} {ahead : Side → Bytes}
      {clock : Clock} (h : Hearing connect streams calls rest ahead) :
      Stage config connect streams calls ⟨.ready (.negotiating rest), ahead, clock⟩
  | late {calls : List Call} {rest : Socks.Negotiation RelayFault} {ahead : Side → Bytes}
      {clock : Clock} (h : Hearing connect streams calls rest ahead) :
      Stage config connect streams calls
        ⟨.ready (.finished (.error (.handshakeTimeout config.handshakeTimeoutSecs))), ahead, clock⟩
  | settled {before after : List Call} {relay : Relay} {answer : Bytes} {clock : Clock}
      {s : Situation}
      (houtcome : Outcome connect (exchange connect streams).progress relay answer (asked before))
      (hclient : written .client before = (exchange connect streams).written ++ answer)
      (hserver : written .server before = []) (htaken : taken .server before = [])
      (hruns : Runs config connect true ⟨.ready relay,
        Function.update streams .client (exchange connect streams).unread, clock⟩ after s) :
      Stage config connect streams (before ++ after) s

theorem Hearing.update_eq {rest : Socks.Negotiation RelayFault}
    (h : Hearing connect streams calls rest ahead) (octets : Bytes) :
    Function.update ahead .client octets = Function.update streams .client octets := by
  funext side
  cases side with
  | client => rw [Function.update_self, Function.update_self]
  | server => simpa using h.ahead_server

/-- A client that is heard on is either still heard or answered. -/
theorem Hearing.hear {rest : Socks.Negotiation RelayFault} {later : Bytes} {ended : Bool} {t : Turn}
    (h : Hearing connect streams calls rest ahead) (hahead : ahead .client = piece ++ later)
    (hended : ended = true → later = [])
    (hturn : negotiate ⟨piece, ended, true⟩ connect rest piece = t) :
    Stage config connect streams (calls ++ heard piece t)
      ⟨.ready t.relay, Function.update ahead .client (t.unread ++ later), clock⟩ := by
  obtain ⟨most, hmost⟩ := h.confined
  obtain ⟨htargets, hstill⟩ :=
    @Dialogue.Confined.run _ _ ⟨piece, ended, true⟩ connect rest most hmost piece
  have hexchange := h.exchange_eq
  rw [hahead] at hexchange
  rcases @Dialogue.run_split _ _ ⟨piece, ended, true⟩ connect ⟨streams .client, true, true⟩ rest
    piece later hended rfl rfl with ⟨rest', hwaiting, hsplit⟩ | ⟨hover, hsplit⟩
  -- the piece was not enough: all of it was read, and what it made the negotiation tell was told
  · rw [hsplit, htargets, List.nil_append] at hexchange
    have hnegotiate : negotiate ⟨piece, ended, true⟩ connect rest piece = ⟨.negotiating rest',
        (rest.run ⟨piece, ended, true⟩ connect piece).written, [], []⟩ := by
      rw [← (Dialogue.of_waiting hwaiting).2, ← htargets]
      simp only [negotiate, hwaiting]
    subst hturn
    rw [hnegotiate]
    refine .hearing ⟨?_, hstill rest' hwaiting, ?_, ?_, ?_, ?_⟩
    · simpa [written_client_heard] using hexchange
    · simp [asked_heard, h.asked_eq]
    · simp [written_server_heard, h.written_server]
    · simp [taken_server_heard, h.taken_server]
    · simpa using h.ahead_server
  -- the negotiation is over, and the answer follows what it told
  · obtain ⟨relay, answer, targets, houtcome, hnegotiate⟩ := negotiate_eq_of_over rfl hover
    rw [hsplit] at hexchange
    rw [htargets, List.nil_append] at hnegotiate
    subst hturn
    rw [hnegotiate, h.update_eq, ← List.append_nil (calls ++ heard piece _)]
    refine @Stage.settled config connect streams _ [] relay answer clock _ ?_ ?_ ?_ ?_ ?_
    · simpa [hexchange, asked_heard, h.asked_eq] using houtcome
    · simp [hexchange, written_client_heard]
    · simp [written_server_heard, h.written_server]
    · simp [taken_server_heard, h.taken_server]
    · rw [hexchange]
      exact .refl

/-- Every step takes a relay from one stage to the next. -/
theorem stage_step (h : Stage config connect streams calls s) {more : List Call}
    (hstep : Step config connect true s more t) :
    Stage config connect streams (calls ++ more) t := by
  cases h with
  | hearing h =>
    cases hstep with
    | pass =>
      rw [List.append_nil]
      exact .hearing h
    | hear hahead hended hlistening hturn =>
      obtain rfl := hlistening rfl
      exact h.hear hahead hended hturn
    | late =>
      rw [List.append_nil]
      exact .late h
  | late h =>
    cases hstep with
    | pass =>
      rw [List.append_nil]
      exact .late h
  | settled houtcome hclient hserver htaken hruns =>
    rw [List.append_assoc]
    exact .settled houtcome hclient hserver htaken (hruns.step hstep)

/-- Every course of a relay leads to a stage. -/
theorem stage_runs (h : Runs config connect true (.start streams clock) calls s) :
    Stage config connect streams calls s := by
  induction h with
  | refl => exact .hearing hearing_start
  | step _ hstep ih => exact stage_step ih hstep

/-! ## The transcript -/

/-- While the client is heard, it was told a beginning of what the negotiation tells. -/
theorem Hearing.written_prefix {rest : Socks.Negotiation RelayFault}
    (h : Hearing connect streams calls rest ahead) :
    written .client calls <+: (exchange connect streams).written := by
  rw [h.exchange_eq]
  exact List.prefix_append _ _

/-- A request that was understood is at the front of what the client offers. -/
theorem exists_request (hprogress : (exchange connect streams).progress = .finished (.ok r)) :
    ∃ request, Spells request r ∧
      streams .client = request ++ (exchange connect streams).unread := by
  have hrun : Dialogue.run ⟨streams .client, true, true⟩ connect Socks.negotiate (streams .client) =
      ⟨.finished (.ok r), (exchange connect streams).written, (exchange connect streams).unread,
        (exchange connect streams).targets⟩ := by
    rw [← hprogress]
    rfl
  obtain ⟨request, hrequest, hcomes⟩ := Dialogue.run_eq_finished_iff.1 hrun
  exact ⟨request, (Socks.comes_negotiate_iff.1 hcomes).2, hrequest⟩

/-- A negotiation under way is over when the rest of what the client offers has arrived. -/
theorem exists_step_of_negotiating {rest : Socks.Negotiation RelayFault} :
    ∃ more t, Step config connect true ⟨.ready (.negotiating rest), ahead, clock⟩ more t ∧
      ∀ d, t.phase ≠ .ready (.negotiating d) := by
  have hover : ∀ d, (rest.run ⟨ahead .client, true, true⟩ connect (ahead .client)).progress ≠
      .waiting d := by
    intro d hwaiting
    cases (Dialogue.of_waiting hwaiting).1
  obtain ⟨relay, answer, targets, houtcome, hnegotiate⟩ := negotiate_eq_of_over rfl hover
  refine ⟨_, _, @Step.hear config connect true rest ahead clock (ahead .client) [] true true _
    (List.append_nil _).symm (fun _ => rfl) (fun _ => rfl) hnegotiate, fun d hphase => ?_⟩
  obtain rfl : relay = .negotiating d := Phase.ready.inj hphase
  rcases houtcome.relay_cases with hrelay | ⟨_, hrelay⟩
  · cases hrelay
  · cases hrelay

/-- A pump that is handed what the negotiation left unread asks for nothing, and carries that to the
server and the server's octets to the client. -/
theorem pump_forwards {unread : Bytes} (h : Runs config connect true
      (.pump (Function.update streams .client unread) clock) calls s) :
    asked calls = [] ∧ written .client calls <+: taken .server calls ∧
      written .server calls <+: unread ∧
      ∀ toServer toClient, s.phase = .ready (.finished (.ok (toServer, toClient))) →
        written .client calls = streams .server ∧ written .server calls = unread := by
  have hsound := sound_runs h
  have htaken := hsound.stream_eq .client
  rw [Function.update_self] at htaken
  refine ⟨hsound.asked_eq, hsound.stands.inOrder.written_prefix .client,
    (hsound.stands.inOrder.written_prefix .server).trans ⟨_, htaken⟩, ?_⟩
  obtain ⟨phase, ahead, now⟩ := s
  rintro toServer toClient rfl
  have hclient := (hsound.of_ok.1 .server).2
  have hserver := (hsound.of_ok.1 .client).2
  rw [Function.update_of_ne (by decide)] at hclient
  rw [Function.update_self] at hserver
  exact ⟨hclient, hserver⟩

/-- What a client is told, and by whom.  While it is heard it was told a beginning of what the
negotiation tells when everything is there at once, and the rest of its octets will settle what it
asks for; then it was told all of that, the answer, and what was read from the server.  Only after a
request that was understood a connection is asked for, once, to where the request leads.  What
reaches the server are octets behind the request, from the first on; all of them do, and all of the
server's reach the client, when the pump comes to a result. -/
theorem relay_transcript (h : Runs config connect true (.start streams clock) calls s) :
    let e := exchange connect streams
    (∀ r, e.progress = .finished (.ok r) →
      ∃ request, Spells request r ∧ streams .client = request ++ e.unread) ∧
    (∀ rest, s.phase = .ready (.negotiating rest) → ∃ more t, Step config connect true s more t ∧
      ∀ d, t.phase ≠ .ready (.negotiating d)) ∧
    (((∃ rest, s.phase = .ready (.negotiating rest)) ∨
        s.phase = .ready (.finished (.error (.handshakeTimeout config.handshakeTimeoutSecs)))) ∧
      written .client calls <+: e.written ∧ written .server calls = [] ∧ asked calls = [] ∨
    ∃ relay answer forwarded, Outcome connect e.progress relay answer (asked calls) ∧
      written .client calls = e.written ++ answer ++ forwarded ∧
      forwarded <+: taken .server calls ∧ written .server calls <+: e.unread ∧
      (∀ result, relay = .finished result →
        s.phase = .ready (.finished result) ∧ forwarded = [] ∧ written .server calls = []) ∧
      ∀ toServer toClient, s.phase = .ready (.finished (.ok (toServer, toClient))) →
        forwarded = streams .server ∧ written .server calls = e.unread) := by
  intro e
  refine ⟨fun r hprogress => exists_request hprogress, ?_, ?_⟩
  · obtain ⟨phase, ahead, now⟩ := s
    rintro rest rfl
    exact exists_step_of_negotiating
  rcases stage_runs h with hearing | hearing |
    @⟨before, after, relay, answer, _, s, houtcome, hclient, hserver, htaken, hruns⟩
  · exact .inl ⟨.inl ⟨_, rfl⟩, hearing.written_prefix, hearing.written_server, hearing.asked_eq⟩
  · exact .inl ⟨.inr rfl, hearing.written_prefix, hearing.written_server, hearing.asked_eq⟩
  · refine .inr ⟨relay, answer, written .client after, ?_⟩
    rcases houtcome.relay_cases with rfl | ⟨fault, rfl⟩
    · obtain ⟨hasked, hforwarded, hreached, hok⟩ := pump_forwards hruns
      refine ⟨?_, ?_, ?_, ?_, nofun, ?_⟩
      · simpa [hasked] using houtcome
      · simp [hclient, e]
      · simpa [htaken] using hforwarded
      · simpa [hserver] using hreached
      · simpa [hserver] using hok
    · obtain ⟨rfl, _, rfl⟩ := hruns.of_finished
      simpa [hclient, hserver, e] using houtcome

/-- A client whose first octet for the tunnel comes right behind its request. -/
theorem relay_transcript_of_octet_behind_request :
    let streams := offering [4, 1, 0, 80, 1, 2, 3, 4, 0, 0x61] [0x62]
    let calls : List Call := [.read .client [4, 1, 0, 80, 1, 2, 3, 4, 0],
      .wrote .client [0, 0x5a, 0, 0, 0, 0, 0, 0], .asked "1.2.3.4" 80,
      .read .client [0x61], .wrote .server [0x61], .carried .server [0x61],
      .read .server [0x62], .wrote .client [0x62], .carried .client [0x62],
      .read .client [], .shutdown .server, .read .server [], .shutdown .client]
    (∃ s, Runs ⟨10, 0⟩ (fun _ _ => .ok ()) true (.start streams .ofHost) calls s ∧
      s.phase = .ready (.finished (.ok (1, 1)))) ∧
      written .server calls = (exchange (fun _ _ => .ok ()) streams).unread ∧
      ∃ request, Spells request ⟨.v4, .connect, "1.2.3.4", 80⟩ ∧
        streams .client = request ++ written .server calls := by
  intro streams calls
  have hturn : negotiate ⟨streams .client, false, true⟩ (fun _ _ => .ok ()) Socks.negotiate
      (streams .client) =
      ⟨.pumping .start, [0, 0x5a, 0, 0, 0, 0, 0, 0], [0x61], [("1.2.3.4", 80)]⟩ := by
    cbv
  have hheard := Runs.single (@Step.hear ⟨10, 0⟩ _ true _ streams .ofHost (streams .client) [] false
    true _ rfl (fun _ => rfl) (fun _ => rfl) hturn)
  have hclient := hheard.trans (@runs_carry ⟨10, 0⟩ (fun _ _ => .ok ()) true .start .client [0x61]
    .ofHost _ [] rfl (by decide) (by decide) rfl rfl)
  have hserver := hclient.trans (@runs_carry ⟨10, 0⟩ (fun _ _ => .ok ()) true _ .server [0x62]
    .ofHost _ [] rfl (by decide) (by decide) rfl rfl)
  have hended := hserver.trans (@runs_end ⟨10, 0⟩ (fun _ _ => .ok ()) true _ .client .ofHost _ rfl
    rfl rfl rfl)
  have hall := (hended.step (@Step.read _ _ _ _ .server _ _ [] [] rfl (by decide) rfl
    fun _ => rfl)).step .shutdown
  have hprogress : (exchange (fun _ _ => .ok ()) streams).progress =
      .finished (.ok ⟨.v4, .connect, "1.2.3.4", 80⟩) := by
    cbv
  obtain ⟨hrequest, -, ⟨⟨_, hphase⟩ | hphase, -⟩ | ⟨_, _, _, -, -, -, -, -, hok⟩⟩ :=
    relay_transcript hall
  · cases hphase
  · cases hphase
  · obtain ⟨request, hspells, hstream⟩ := hrequest _ hprogress
    have hunread : written .server calls = (exchange (fun _ _ => .ok ()) streams).unread :=
      (hok 1 1 rfl).2
    exact ⟨⟨_, hall, rfl⟩, hunread, request, hspells, by rw [hstream, hunread]⟩

end Meshway.Relay

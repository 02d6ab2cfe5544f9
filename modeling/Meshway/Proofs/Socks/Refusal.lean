import Meshway.Proofs.Socks.Grammar
set_option autoImplicit false

/-!
# Requests that are refused (SPEC §6, §7)

A request is complete when all its parts have arrived, whatever they say.  Main
statement: a negotiation that has heard a complete request comes to a result;
if it is a refusal, the client has been told so by one reply of its version,
behind the greeting, and by nothing else, except where the name of the host is
no text.  Then the client is told nothing.
-/

namespace Meshway.Socks

/-! ## Complete requests -/

/-- The octets by which a request of version 5 gives its host, and the host, if they give one: the
octets of a name may be no text. -/
inductive Gives : Bytes → Option String → Prop where
  | ipv4 (ip : IPv4) : Gives (1 :: ip.octets) (some ip.text)
  | name {octets : Bytes} (hlen : octets.length ≤ 255) :
      Gives (3 :: UInt8.ofNat octets.length :: octets) (Utf8.decode? octets)
  | ipv6 {octets : Bytes} (hlen : octets.length = 16) :
      Gives (4 :: octets) (some (IPv6.ofOctets octets).text)

/-- The octets of a complete request of some version, and its host, if they give one.  The command
may be any. -/
inductive Complete : Bytes → Version → Option String → Prop where
  | v5 {methods address : Bytes} {command reserved : UInt8} {port : UInt16} {host : Option String}
      (hlen : methods.length ≤ 255) (hmethod : 0 ∈ methods) (haddress : Gives address host) :
      Complete (5 :: UInt8.ofNat methods.length :: (methods ++
        5 :: command :: reserved :: (address ++ Bytes.ofUInt16 port))) .v5 host
  | v4 {command : UInt8} {port : UInt16} {ip : IPv4} {user : Bytes} (huser : Terminable user)
      (hip : ¬ IsEscape ip) :
      Complete (4 :: command :: (Bytes.ofUInt16 port ++ (ip.octets ++ (user ++ [0])))) .v4
        (some ip.text)
  | v4a {command : UInt8} {port : UInt16} {ip : IPv4} {user name : Bytes} (huser : Terminable user)
      (hip : IsEscape ip) (hname : Terminable name) :
      Complete (4 :: command :: (Bytes.ofUInt16 port ++ (ip.octets ++
        (user ++ 0 :: (name ++ [0]))))) .v4 (Utf8.decode? name)

/-! ## What a complete request comes to -/

/-- The reply to a complete request that cannot be granted. -/
inductive Refuses : Fault → Reply → Prop where
  | unknownCommand (command : UInt8) : Refuses (.unknownCommand command) .commandNotSupported
  | emptyHost : Refuses (.malformed .emptyHost) .generalFailure

/-- What is written behind the greeting, and what a request for a host comes to. -/
inductive Settles (version : Version) : Option String → Bytes → Except Fault Request → Prop where
  | granted {host : String} (r : Request) : Settles version (some host) [] (.ok r)
  | refused {host : String} {fault : Fault} {reply : Reply} (h : Refuses fault reply) :
      Settles version (some host) (reply.octets version none) (.error fault)
  | notText : Settles version none [] (.error (.malformed .hostNotText))

section Parts

variable {ε : Type} {connect : String → UInt16 → Except ε Unit} {input written : Bytes}
  {targets : List (String × UInt16)} {result : Except Fault Request}

open Dialogue

/-- Goes on with a host, if there is one. -/
def onHost (host : Option String) (next : String → Negotiation ε) : Negotiation ε :=
  match host with
  | some host => next host
  | none => reject (.malformed .hostNotText)

theorem withHost_eq (octets : Bytes) (next : String → Negotiation ε) :
    withHost octets next = onHost (Utf8.decode? octets) next := rfl

theorem comes_reject (fault : Fault) :
    Comes true connect (reject fault) [] [] [] (.error fault) :=
  comes_done_iff.2 ⟨rfl, rfl, rfl, rfl⟩

theorem comes_refuse (version : Version) (reply : Reply) (fault : Fault) :
    Comes true connect (refuse version reply fault) [] (reply.octets version none) []
      (.error fault) :=
  comes_write_iff.2 ⟨rfl, [], (List.append_nil _).symm, comes_reject fault⟩

/-- A request for a host is granted, or refused with a reply. -/
theorem comes_grant (version : Version) (octet : UInt8) (command : Option Command) (host : String)
    (port : UInt16) : ∃ written result,
      Comes true connect (grant version octet command host port) [] written [] result ∧
        Settles version (some host) written result := by
  cases command with
  | none => exact ⟨_, _, comes_refuse _ _ _, .refused (.unknownCommand octet)⟩
  | some c =>
    by_cases hhost : host = ""
    · refine ⟨_, _, ?_, .refused .emptyHost⟩
      rw [grant, if_pos hhost]
      exact comes_refuse _ _ _
    · refine ⟨_, _, ?_, .granted ⟨version, c, host, port⟩⟩
      rw [grant, if_neg hhost]
      exact comes_done_iff.2 ⟨rfl, rfl, rfl, rfl⟩

/-- The octets that give a host are read, and the negotiation goes on with the host. -/
theorem comes_readHost5 {kind : UInt8} {rest : Bytes} {host : Option String}
    {next : String → Negotiation ε} (haddress : Gives (kind :: rest) host)
    (h : Comes true connect (onHost host next) input written targets result) :
    Comes true connect (readHost5 kind next) (rest ++ input) written targets result := by
  cases haddress with
  | ipv4 ip => exact comes_read_iff.2 ⟨ip.octets, input, rfl, rfl, h⟩
  | @name octets hlen =>
    rw [readHost5, if_neg (by decide), if_pos rfl]
    refine comes_readByte_iff.2 ⟨_, _, rfl, comes_read_iff.2 ⟨octets, input, rfl, ?_, ?_⟩⟩
    · rw [UInt8.toNat_ofNat_of_lt' (Nat.lt_succ_of_le hlen)]
    · rwa [withHost_eq]
  | ipv6 hlen =>
    rw [readHost5, if_neg (by decide), if_neg (by decide), if_pos rfl]
    exact comes_read_iff.2 ⟨rest, input, rfl, hlen, h⟩

/-- A string is read up to its end. -/
theorem comes_readString {octets : Bytes} {next : Bytes → Negotiation ε}
    (hoctets : Terminable octets)
    (h : Comes true connect (next octets) input written targets result) :
    Comes true connect (readString next) (octets ++ 0 :: input) written targets result :=
  comes_readTerminated_iff.2
    ⟨octets, input, hoctets.length_le, hoctets.zero_notMem, .inl ⟨rfl, h⟩⟩

/-- The greeting of version 5 is answered, and the request behind it read up to its host. -/
theorem comes_negotiate_v5 {methods rest : Bytes} {command reserved kind : UInt8}
    {host : Option String} (hlen : methods.length ≤ 255) (hmethod : 0 ∈ methods)
    (haddress : Gives (kind :: rest) host)
    (h : Comes true connect (onHost host fun host => .readUInt16 fun port =>
      grant .v5 command (command5? command) host port) input written targets result) :
    Comes true connect negotiate (5 :: UInt8.ofNat methods.length :: (methods ++
      5 :: command :: reserved :: kind :: (rest ++ input))) ([5, 0] ++ written) targets result := by
  refine comes_readByte_iff.2 ⟨5, _, rfl, ?_⟩
  rw [if_neg (by decide), if_pos rfl]
  refine comes_readByte_iff.2 ⟨_, _, rfl, comes_read_iff.2 ⟨methods, _, rfl, ?_, ?_⟩⟩
  · rw [UInt8.toNat_ofNat_of_lt' (Nat.lt_succ_of_le hlen)]
  · rw [if_pos hmethod]
    refine comes_write_iff.2 ⟨rfl, written, rfl, comes_readByte_iff.2 ⟨5, _, rfl, ?_⟩⟩
    rw [if_pos rfl]
    exact comes_readByte_iff.2 ⟨command, _, rfl, comes_readByte_iff.2 ⟨reserved, _, rfl,
      comes_readByte_iff.2 ⟨kind, _, rfl, comes_readHost5 haddress h⟩⟩⟩

/-- A request of version 4 is read up to its user. -/
theorem comes_negotiate_v4 {command : UInt8} {port : UInt16} {ip : IPv4} {user : Bytes}
    (huser : Terminable user)
    (h : Comes true connect (if namesHost ip.octets then readString fun octets => withHost octets
        fun host => grant .v4 command (command4? command) host port
      else grant .v4 command (command4? command) ip.text port) input written targets result) :
    Comes true connect negotiate (4 :: command :: (Bytes.ofUInt16 port ++ (ip.octets ++
      (user ++ 0 :: input)))) written targets result := by
  refine comes_readByte_iff.2 ⟨4, _, rfl, ?_⟩
  rw [if_pos rfl]
  exact comes_readByte_iff.2 ⟨command, _, rfl, comes_readUInt16_iff.2 ⟨port, _, rfl,
    comes_read_iff.2 ⟨ip.octets, _, rfl, rfl, comes_readString huser h⟩⟩⟩

/-- A complete request comes to a result, which may leave its last octets unread. -/
theorem comes_of_complete {w : Bytes} {version : Version} {host : Option String}
    (h : Complete w version host) : ∃ u rest written result, w = u ++ rest ∧
      Comes true connect (negotiate : Negotiation ε) u (greeting version ++ written) [] result ∧
        Settles version host written result := by
  cases h with
  | @v5 methods address command reserved port host hlen hmethod haddress =>
    obtain ⟨kind, rest, rfl⟩ : ∃ kind rest, address = kind :: rest := by
      cases haddress <;> exact ⟨_, _, rfl⟩
    cases host with
    | some host =>
      obtain ⟨written, result, hgrant, hsettles⟩ :=
        @comes_grant ε connect .v5 command (command5? command) host port
      refine ⟨_, [], written, result, (List.append_nil _).symm, ?_, hsettles⟩
      refine comes_negotiate_v5 hlen hmethod haddress ?_
      exact comes_readUInt16_iff.2 ⟨port, [], (List.append_nil _).symm, hgrant⟩
    | none =>
      -- the request is given up before its port
      refine ⟨5 :: UInt8.ofNat methods.length :: (methods ++ 5 :: command :: reserved :: kind ::
        (rest ++ [])), Bytes.ofUInt16 port, [], _, by simp, ?_, .notText⟩
      exact comes_negotiate_v5 hlen hmethod haddress (comes_reject _)
  | @v4 command port ip user huser hip =>
    obtain ⟨written, result, hgrant, hsettles⟩ :=
      @comes_grant ε connect .v4 command (command4? command) ip.text port
    refine ⟨_, [], written, result, (List.append_nil _).symm, ?_, hsettles⟩
    refine comes_negotiate_v4 huser ?_
    rwa [if_neg fun h => hip (namesHost_iff.1 h)]
  | @v4a command port ip user name huser hip hname =>
    have hread (written : Bytes) (result : Except Fault Request)
        (h : Comes true connect (onHost (Utf8.decode? name) fun host =>
          grant .v4 command (command4? command) host port) [] written [] result) :
        Comes true connect (negotiate : Negotiation ε) (4 :: command :: (Bytes.ofUInt16 port ++
          (ip.octets ++ (user ++ 0 :: (name ++ [0]))))) written [] result := by
      refine comes_negotiate_v4 huser ?_
      rw [if_pos (namesHost_iff.2 hip)]
      exact comes_readString hname h
    generalize Utf8.decode? name = host at hread ⊢
    cases host with
    | some host =>
      obtain ⟨written, result, hgrant, hsettles⟩ :=
        @comes_grant ε connect .v4 command (command4? command) host port
      exact ⟨_, [], written, result, (List.append_nil _).symm, hread _ _ hgrant, hsettles⟩
    | none =>
      exact ⟨_, [], [], _, (List.append_nil _).symm, hread _ _ (comes_reject _), .notText⟩

/-- A greeting without the one method that is accepted is answered with a refusal of all. -/
theorem comes_negotiate_of_notMem {methods : Bytes} (hlen : methods.length ≤ 255)
    (hmethod : 0 ∉ methods) :
    Comes true connect (negotiate : Negotiation ε) (5 :: UInt8.ofNat methods.length :: methods)
      [5, 0xff] [] (.error .noAcceptableAuth) := by
  refine comes_readByte_iff.2 ⟨5, _, rfl, ?_⟩
  rw [if_neg (by decide), if_pos rfl]
  refine comes_readByte_iff.2 ⟨_, _, rfl, comes_read_iff.2
    ⟨methods, [], (List.append_nil _).symm, ?_, ?_⟩⟩
  · rw [UInt8.toNat_ofNat_of_lt' (Nat.lt_succ_of_le hlen)]
  · rw [if_neg hmethod]
    exact comes_write_iff.2 ⟨rfl, [], rfl, comes_reject _⟩

end Parts

/-! ## Refusals -/

theorem Refuses.ne_succeeded {fault : Fault} {reply : Reply} (h : Refuses fault reply) :
    reply ≠ .succeeded := by
  cases h <;> decide

/-- However the octets of a client that can be written to arrive, a complete request comes to a
result.  If this is a refusal, and the host is given as an address or by a text, the client has been
told by one failure reply of its version, behind the greeting, and by nothing else.  A request whose
host is no text is refused too, but behind the greeting the client is told nothing.  A greeting
without the method that is accepted is answered by a refusal of all methods, and by nothing else. -/
theorem negotiate_answers_refusals {ε : Type} (client : Client)
    (connect : String → UInt16 → Except ε Unit) (pieces : List Bytes)
    (hlistening : client.listening = true) :
    let e := Dialogue.hear client connect negotiate pieces
    (∀ w later version host, Complete w version host → pieces.flatten = w ++ later →
      ∃ result, e.progress = .finished result ∧
        (∀ fault, result = .error fault → host ≠ none →
          ∃ reply, Refuses fault reply ∧ reply ≠ .succeeded ∧
            e.written = greeting version ++ reply.octets version none) ∧
        (host = none →
          result = .error (.malformed .hostNotText) ∧ e.written = greeting version)) ∧
    ∀ methods later, methods.length ≤ 255 → 0 ∉ methods →
      pieces.flatten = 5 :: UInt8.ofNat methods.length :: (methods ++ later) →
        e.progress = .finished (.error .noAcceptableAuth) ∧ e.written = [5, 0xff] := by
  intro e
  -- what is at the front of the octets decides, if a negotiation comes to a result by it
  have hfinished {w later written : Bytes} {result : Except Fault Request}
      (hw : pieces.flatten = w ++ later)
      (hcomes : Dialogue.Comes true connect negotiate w written [] result) :
      e = ⟨.finished result, written, later, []⟩ := by
    rw [← hlistening] at hcomes
    exact (Dialogue.hear_eq_run negotiate pieces).trans
      (Dialogue.run_eq_finished_iff.2 ⟨w, hw, hcomes⟩)
  refine ⟨fun w later version host hcomplete hw => ?_, fun methods later hlen hmethod hw => ?_⟩
  · obtain ⟨read, rest, written, result, rfl, hcomes, hsettles⟩ :=
      @comes_of_complete ε connect _ _ _ hcomplete
    rw [hfinished (hw.trans (List.append_assoc ..)) hcomes]
    refine ⟨result, rfl, ?_, ?_⟩
    · rintro fault rfl hhost
      cases hsettles with
      | refused hrefuses => exact ⟨_, hrefuses, hrefuses.ne_succeeded, rfl⟩
      | notText => exact absurd rfl hhost
    · rintro rfl
      cases hsettles
      exact ⟨rfl, List.append_nil _⟩
  · rw [hfinished (w := 5 :: UInt8.ofNat methods.length :: methods) hw
      (comes_negotiate_of_notMem hlen hmethod)]
    exact ⟨rfl, rfl⟩

/-- A request in version 5 with an unknown command, cut in the middle of the greeting and of the
address. -/
theorem negotiate_answers_unknown_command :
    let e := Dialogue.hear ⟨[], false, true⟩ (fun _ _ => (.ok () : Except Empty Unit)) negotiate
      [[5, 1], [0, 5, 9, 0, 1, 127, 0], [0, 1, 0, 80]]
    ∃ fault reply, e.progress = .finished (.error fault) ∧ Refuses fault reply ∧
      e.written = [5, 0] ++ reply.octets .v5 none := by
  intro e
  have hcomplete : Complete [5, 1, 0, 5, 9, 0, 1, 127, 0, 0, 1, 0, 80] .v5
      (some (IPv4.ofOctets [127, 0, 0, 1]).text) :=
    @Complete.v5 [0] [1, 127, 0, 0, 1] 9 0 80 _ (by decide) (by decide)
      (Gives.ipv4 (IPv4.ofOctets [127, 0, 0, 1]))
  obtain ⟨result, hprogress, hanswered, -⟩ := (negotiate_answers_refusals ⟨[], false, true⟩
    (fun _ _ => (.ok () : Except Empty Unit)) [[5, 1], [0, 5, 9, 0, 1, 127, 0], [0, 1, 0, 80]]
    rfl).1 _ [] _ _ hcomplete rfl
  have hresult : e.progress = .finished (.error (.unknownCommand 9)) := rfl
  obtain rfl : result = .error (.unknownCommand 9) := by
    simpa using hprogress.symm.trans hresult
  obtain ⟨reply, hrefuses, -, hwritten⟩ := hanswered _ rfl nofun
  exact ⟨_, reply, hresult, hrefuses, hwritten⟩

/-- Requests whose host is an octet that is no text are complete, in version 5 and in version 4, and
refused with no reply. -/
theorem negotiate_silent_on_octets_not_text :
    let heard (octets : Bytes) := Dialogue.hear ⟨[], true, true⟩
      (fun _ _ => (.ok () : Except Empty Unit)) negotiate [octets]
    (Complete [5, 1, 0, 5, 1, 0, 3, 1, 0xff, 0, 80] .v5 none ∧
      (heard [5, 1, 0, 5, 1, 0, 3, 1, 0xff, 0, 80]).progress =
        .finished (.error (.malformed .hostNotText)) ∧
      (heard [5, 1, 0, 5, 1, 0, 3, 1, 0xff, 0, 80]).written = [5, 0]) ∧
    Complete [4, 1, 0, 80, 0, 0, 0, 1, 0, 0xff, 0] .v4 none ∧
      (heard [4, 1, 0, 80, 0, 0, 0, 1, 0, 0xff, 0]).progress =
        .finished (.error (.malformed .hostNotText)) ∧
      (heard [4, 1, 0, 80, 0, 0, 0, 1, 0, 0xff, 0]).written = [] := by
  have hnone : Utf8.decode? [0xff] = none := by decide +kernel
  have hname : Gives [3, 1, 0xff] none := hnone ▸ @Gives.name [0xff] (by decide)
  have hv4a := @Complete.v4a 1 80 (IPv4.ofOctets [0, 0, 0, 1]) [] [0xff]
    ⟨by decide, by decide⟩ (by unfold IsEscape; decide) ⟨by decide, by decide⟩
  rw [hnone] at hv4a
  exact ⟨⟨@Complete.v5 [0] [3, 1, 0xff] 1 0 80 _ (by decide) (by decide) hname,
    rfl, rfl⟩, hv4a, rfl, rfl⟩

end Meshway.Socks

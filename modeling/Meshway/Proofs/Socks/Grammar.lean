import Meshway.Proofs.Dialogue
import Meshway.Socks
set_option autoImplicit false

/-!
# The grammar of requests (SPEC §6)

Which octets make up a request, said without reading them.  Main statement: a
negotiation comes to a request just when octets that make it up have arrived; it
takes these and none behind them, and has answered the greeting of version 5 and
nothing else.  Whatever arrives, it takes no more than 520 octets.
-/

namespace Meshway

/-! ## Written addresses -/

theorem IPv4.octets_ofOctets {octets : Bytes} (h : octets.length = 4) :
    (ofOctets octets).octets = octets := by
  match octets, h with
  | [_, _, _, _], _ => rfl

theorem IPv4.text_ne_empty (ip : IPv4) : ip.text ≠ "" := by
  intro h
  simp only [text, String.append_eq_empty_iff] at h
  exact absurd h.1.2 (by decide)

theorem IPv6.text_ne_empty (ip : IPv6) : ip.text ≠ "" := by
  intro h
  have hsize : ip.groups.toList.length = 8 := by simp
  unfold text at h
  split at h
  · rw [String.append_eq_empty_iff] at h
    exact absurd h.1 (by decide)
  · simp only at h
    split at h
    · rw [String.append_eq_empty_iff, String.append_eq_empty_iff] at h
      exact absurd h.1.2 (by decide)
    · obtain ⟨g, g', gs, hgs⟩ : ∃ g g' gs, ip.groups.toList = g :: g' :: gs := by
        match hgroups : ip.groups.toList with
        | [] => simp [hgroups] at hsize
        | [g] => simp [hgroups] at hsize
        | g :: g' :: gs => exact ⟨g, g', gs, rfl⟩
      have hempty := congrArg String.toList h
      rw [hgs] at hempty
      simp [groupsText] at hempty

namespace Socks

/-! ## Requests as octets -/

/-- The octet for a command. -/
def Command.octet : Command → UInt8
  | .connect => 1
  | .bind => 2
  | .udpAssociate => 3

/-- The octets by which a request of version 5 names its host: an address of four octets, a name
after its length, or an address of eight groups. -/
inductive Names : Bytes → String → Prop where
  | ipv4 (ip : IPv4) : Names (1 :: ip.octets) ip.text
  | name {host : String} (hne : host ≠ "") (hsize : Utf8.size host ≤ 255) :
      Names (3 :: UInt8.ofNat (Utf8.size host) :: Utf8.encode host) host
  | ipv6 {octets : Bytes} (hlen : octets.length = 16) :
      Names (4 :: octets) (IPv6.ofOctets octets).text

/-- Octets that a request of version 4 can hold with a zero octet behind them. -/
structure Terminable (octets : Bytes) : Prop where
  length_le : octets.length ≤ 255
  zero_notMem : 0 ∉ octets

/-- Whether an address of version 4 stands for a name. -/
def IsEscape (ip : IPv4) : Prop := ip.a = 0 ∧ ip.b = 0 ∧ ip.c = 0 ∧ ip.d ≠ 0

/-- The octets that make up a request, from the first of the greeting to the last. -/
inductive Spells : Bytes → Request → Prop where
  | v5 {methods address : Bytes} {command : Command} {reserved : UInt8} {host : String}
      {port : UInt16} (hlen : methods.length ≤ 255) (hmethod : 0 ∈ methods)
      (haddress : Names address host) :
      Spells (5 :: UInt8.ofNat methods.length :: (methods ++
          5 :: command.octet :: reserved :: (address ++ Bytes.ofUInt16 port)))
        ⟨.v5, command, host, port⟩
  | v4 {command : Command} {port : UInt16} {ip : IPv4} {user : Bytes}
      (hcommand : command ≠ .udpAssociate) (huser : Terminable user) (hip : ¬ IsEscape ip) :
      Spells (4 :: command.octet :: (Bytes.ofUInt16 port ++ (ip.octets ++ (user ++ [0]))))
        ⟨.v4, command, ip.text, port⟩
  | v4a {command : Command} {port : UInt16} {ip : IPv4} {user : Bytes} {host : String}
      (hcommand : command ≠ .udpAssociate) (huser : Terminable user) (hip : IsEscape ip)
      (hne : host ≠ "") (hhost : Terminable (Utf8.encode host)) :
      Spells (4 :: command.octet :: (Bytes.ofUInt16 port ++ (ip.octets ++
          (user ++ 0 :: (Utf8.encode host ++ [0])))))
        ⟨.v4, command, host, port⟩

/-- What is answered before a request is read. -/
def greeting : Version → Bytes
  | .v4 => []
  | .v5 => [5, 0]

/-! ## What the parts of a negotiation come to -/

section Parts

variable {ε : Type} {listening : Bool} {connect : String → UInt16 → Except ε Unit}
  {input written : Bytes} {targets : List (String × UInt16)} {r : Request}

open Dialogue

theorem command5?_eq_some {b : UInt8} {c : Command} : command5? b = some c ↔ b = c.octet := by
  unfold command5?
  cases c <;> grind [Command.octet]

theorem command4?_eq_some {b : UInt8} {c : Command} :
    command4? b = some c ↔ b = c.octet ∧ c ≠ .udpAssociate := by
  unfold command4?
  cases c <;> grind [Command.octet]

theorem namesHost_iff {ip : IPv4} : namesHost ip.octets = true ↔ IsEscape ip := by
  simp [namesHost, IPv4.octets, IsEscape, and_assoc]

theorem not_comes_reject {fault : Fault} :
    ¬ Comes listening connect (reject fault) input written targets (.ok r) := by
  rw [reject, comes_done_iff]
  rintro ⟨-, -, -, h⟩
  cases h

theorem not_comes_refuse {version : Version} {reply : Reply} {fault : Fault} :
    ¬ Comes listening connect (refuse version reply fault) input written targets (.ok r) := by
  rw [refuse, comes_write_iff]
  rintro ⟨-, later, -, h⟩
  exact not_comes_reject h

/-- A request is granted if its command is known and its host has a name. -/
theorem comes_grant_iff {version : Version} {octet : UInt8} {command : Option Command}
    {host : String} {port : UInt16} :
    Comes listening connect (grant version octet command host port) input written targets (.ok r) ↔
      (input = [] ∧ written = [] ∧ targets = []) ∧
        ∃ c, command = some c ∧ host ≠ "" ∧ r = ⟨version, c, host, port⟩ := by
  cases command with
  | none => simp [grant, not_comes_refuse]
  | some c =>
    by_cases hhost : host = ""
    · simp [grant, hhost, not_comes_refuse]
    · simp [grant, hhost, comes_done_iff, and_assoc]

theorem comes_withHost_iff {octets : Bytes} {next : String → Negotiation ε} :
    Comes listening connect (withHost octets next) input written targets (.ok r) ↔
      ∃ host, octets = Utf8.encode host ∧
        Comes listening connect (next host) input written targets (.ok r) := by
  unfold withHost
  cases hdecode : Utf8.decode? octets with
  | none =>
    refine ⟨fun h => absurd h not_comes_reject, ?_⟩
    rintro ⟨host, rfl, -⟩
    rw [Utf8.decode?_encode] at hdecode
    cases hdecode
  | some host =>
    constructor
    · exact fun h => ⟨host, (Utf8.encode_of_decode? hdecode).symm, h⟩
    · rintro ⟨host', rfl, h⟩
      rw [Utf8.decode?_encode] at hdecode
      cases hdecode
      exact h

/-- A string is read up to the zero octet behind it. -/
theorem comes_readString_iff {next : Bytes → Negotiation ε} :
    Comes listening connect (readString next) input written targets (.ok r) ↔
      ∃ octets rest, input = octets ++ 0 :: rest ∧ Terminable octets ∧
        Comes listening connect (next octets) rest written targets (.ok r) := by
  rw [readString, comes_readTerminated_iff]
  constructor
  · rintro ⟨octets, rest, hlen, hmem, ⟨rfl, h⟩ | ⟨_, _, _, _, h⟩⟩
    · exact ⟨octets, rest, rfl, ⟨hlen, hmem⟩, h⟩
    · exact absurd h not_comes_reject
  · rintro ⟨octets, rest, rfl, hoctets, h⟩
    exact ⟨octets, rest, hoctets.length_le, hoctets.zero_notMem, .inl ⟨rfl, h⟩⟩

/-- A host is read as it is named; the empty name is read too. -/
theorem comes_readHost5_iff {kind : UInt8} {next : String → Negotiation ε} :
    Comes listening connect (readHost5 kind next) input written targets (.ok r) ↔
      ∃ address host rest, kind :: input = address ++ rest ∧
        (Names address host ∨ address = [3, 0] ∧ host = "") ∧
        Comes listening connect (next host) rest written targets (.ok r) := by
  unfold readHost5
  constructor
  · intro h
    split at h
    · rename_i hkind
      rw [comes_read_iff] at h
      obtain ⟨octets, rest, rfl, hlen, h⟩ := h
      refine ⟨1 :: octets, _, rest, by rw [hkind]; rfl, .inl ?_, h⟩
      have hip := Names.ipv4 (IPv4.ofOctets octets)
      rwa [IPv4.octets_ofOctets hlen] at hip
    · split at h
      · rename_i hkind
        rw [comes_readByte_iff] at h
        obtain ⟨size, input, rfl, h⟩ := h
        rw [comes_read_iff] at h
        obtain ⟨octets, rest, rfl, hlen, h⟩ := h
        rw [comes_withHost_iff] at h
        obtain ⟨host, rfl, h⟩ := h
        have hsize : UInt8.ofNat (Utf8.size host) = size := by
          rw [Utf8.size, hlen, UInt8.ofNat_toNat]
        refine ⟨3 :: size :: Utf8.encode host, host, rest, by rw [hkind]; rfl, ?_, h⟩
        by_cases hne : host = ""
        · subst hne
          exact .inr ⟨by rw [← hsize]; rfl, rfl⟩
        · refine .inl (hsize ▸ .name hne ?_)
          have hlt := size.toNat_lt
          rw [Utf8.size]
          omega
      · split at h
        · rename_i hkind
          rw [comes_read_iff] at h
          obtain ⟨octets, rest, rfl, hlen, h⟩ := h
          exact ⟨4 :: octets, _, rest, by rw [hkind]; rfl, .inl (.ipv6 hlen), h⟩
        · exact absurd h not_comes_refuse
  · rintro ⟨address, host, rest, hinput, hnames, h⟩
    rcases hnames with ⟨⟨ip⟩ | ⟨hne, hsize⟩ | ⟨hlen⟩⟩ | ⟨rfl, rfl⟩
    · obtain ⟨rfl, rfl⟩ := List.cons_eq_cons.1 hinput
      rw [if_pos rfl]
      exact comes_read_iff.2 ⟨ip.octets, rest, rfl, rfl, h⟩
    · obtain ⟨rfl, rfl⟩ := List.cons_eq_cons.1 hinput
      rw [if_neg (by decide), if_pos rfl]
      refine comes_readByte_iff.2 ⟨_, _, rfl, comes_read_iff.2 ⟨_, _, rfl, ?_, ?_⟩⟩
      · rw [UInt8.toNat_ofNat_of_lt' (Nat.lt_succ_of_le hsize), Utf8.size]
      · exact comes_withHost_iff.2 ⟨host, rfl, h⟩
    · obtain ⟨rfl, rfl⟩ := List.cons_eq_cons.1 hinput
      rw [if_neg (by decide), if_neg (by decide), if_pos rfl]
      exact comes_read_iff.2 ⟨_, _, rfl, hlen, h⟩
    · obtain ⟨rfl, rfl⟩ := List.cons_eq_cons.1 hinput
      rw [if_neg (by decide), if_pos rfl]
      exact comes_readByte_iff.2 ⟨_, _, rfl, comes_read_iff.2 ⟨[], _, rfl, rfl,
        comes_withHost_iff.2 ⟨"", rfl, h⟩⟩⟩

theorem comes_request5_iff :
    Comes listening connect request5 input written targets (.ok r) ↔
      (written = [] ∧ targets = []) ∧
        ∃ (command : Command) (reserved : UInt8) (address : Bytes) (host : String) (port : UInt16),
          Names address host ∧ r = ⟨.v5, command, host, port⟩ ∧
          input = 5 :: command.octet :: reserved :: (address ++ Bytes.ofUInt16 port) := by
  rw [request5, comes_readByte_iff]
  constructor
  · rintro ⟨version, input, rfl, h⟩
    split at h
    · rename_i hversion
      rw [comes_readByte_iff] at h
      obtain ⟨octet, input, rfl, h⟩ := h
      rw [comes_readByte_iff] at h
      obtain ⟨reserved, input, rfl, h⟩ := h
      rw [comes_readByte_iff] at h
      obtain ⟨kind, input, rfl, h⟩ := h
      rw [comes_readHost5_iff] at h
      obtain ⟨address, host, rest, hinput, hnames, h⟩ := h
      rw [comes_readUInt16_iff] at h
      obtain ⟨port, rest, rfl, h⟩ := h
      rw [comes_grant_iff] at h
      obtain ⟨⟨rfl, rfl, rfl⟩, command, hknown, hne, rfl⟩ := h
      obtain rfl := command5?_eq_some.1 hknown
      -- the empty name was read, but it is not granted
      have hnames : Names address host := hnames.resolve_right fun hempty => hne hempty.2
      refine ⟨⟨rfl, rfl⟩, command, reserved, address, host, port, hnames, rfl, ?_⟩
      rw [hversion, hinput, List.append_nil]
    · exact absurd h not_comes_reject
  · rintro ⟨⟨rfl, rfl⟩, command, reserved, address, host, port, hnames, rfl, rfl⟩
    obtain ⟨kind, rest, haddress⟩ : ∃ kind rest, address = kind :: rest := by
      cases hnames <;> exact ⟨_, _, rfl⟩
    have hne : host ≠ "" := by
      cases hnames with
      | ipv4 ip => exact ip.text_ne_empty
      | name hne => exact hne
      | ipv6 => exact IPv6.text_ne_empty _
    refine ⟨5, _, rfl, ?_⟩
    rw [if_pos rfl]
    refine comes_readByte_iff.2 ⟨_, _, rfl, comes_readByte_iff.2 ⟨_, _, rfl,
      comes_readByte_iff.2 ⟨kind, rest ++ Bytes.ofUInt16 port, by rw [haddress]; rfl, ?_⟩⟩⟩
    refine comes_readHost5_iff.2 ⟨address, host, Bytes.ofUInt16 port, by rw [haddress]; rfl,
      .inl hnames, comes_readUInt16_iff.2 ⟨port, [], (List.append_nil _).symm, ?_⟩⟩
    exact comes_grant_iff.2 ⟨⟨rfl, rfl, rfl⟩, command, command5?_eq_some.2 rfl, hne, rfl⟩

theorem comes_negotiate5_iff :
    Comes listening connect negotiate5 input written targets (.ok r) ↔
      (listening = true ∧ written = [5, 0] ∧ targets = []) ∧ r.version = .v5 ∧
        Spells (5 :: input) r := by
  rw [negotiate5, comes_readByte_iff]
  constructor
  · rintro ⟨count, input, rfl, h⟩
    rw [comes_read_iff] at h
    obtain ⟨methods, rest, rfl, hlen, h⟩ := h
    split at h
    · rename_i hmethod
      rw [comes_write_iff] at h
      obtain ⟨hlistening, later, rfl, h⟩ := h
      rw [comes_request5_iff] at h
      obtain ⟨⟨rfl, rfl⟩, command, reserved, address, host, port, hnames, rfl, rfl⟩ := h
      have hcount : count = UInt8.ofNat methods.length := by rw [hlen, UInt8.ofNat_toNat]
      have hlt := count.toNat_lt
      rw [hcount]
      exact ⟨⟨hlistening, rfl, rfl⟩, rfl, .v5 (by omega) hmethod hnames⟩
    · obtain ⟨-, later, -, h⟩ := comes_write_iff.1 h
      exact absurd h not_comes_reject
  · rintro ⟨⟨hlistening, rfl, rfl⟩, hversion, hspells⟩
    generalize hoctets : 5 :: input = octets at hspells
    cases hspells with
    | v5 hlen hmethod haddress =>
      obtain ⟨-, rfl⟩ := List.cons_eq_cons.1 hoctets
      refine ⟨_, _, rfl, comes_read_iff.2 ⟨_, _, rfl, ?_, ?_⟩⟩
      · rw [UInt8.toNat_ofNat_of_lt' (Nat.lt_succ_of_le hlen)]
      · rw [if_pos hmethod]
        exact comes_write_iff.2 ⟨hlistening, [], rfl, comes_request5_iff.2
          ⟨⟨rfl, rfl⟩, _, _, _, _, _, haddress, rfl, rfl⟩⟩
    | v4 => cases hversion
    | v4a => cases hversion

theorem comes_negotiate4_iff :
    Comes listening connect negotiate4 input written targets (.ok r) ↔
      (written = [] ∧ targets = []) ∧ r.version = .v4 ∧ Spells (4 :: input) r := by
  rw [negotiate4, comes_readByte_iff]
  constructor
  · rintro ⟨octet, input, rfl, h⟩
    rw [comes_readUInt16_iff] at h
    obtain ⟨port, input, rfl, h⟩ := h
    rw [comes_read_iff] at h
    obtain ⟨octets, input, rfl, hlen, h⟩ := h
    rw [comes_readString_iff] at h
    obtain ⟨user, rest, rfl, huser, h⟩ := h
    obtain ⟨ip, rfl⟩ : ∃ ip : IPv4, octets = ip.octets := ⟨_, (IPv4.octets_ofOctets hlen).symm⟩
    split at h
    · rename_i hescape
      rw [comes_readString_iff] at h
      obtain ⟨name, rest, rfl, hname, h⟩ := h
      rw [comes_withHost_iff] at h
      obtain ⟨host, rfl, h⟩ := h
      rw [comes_grant_iff] at h
      obtain ⟨⟨rfl, rfl, rfl⟩, command, hknown, hne, rfl⟩ := h
      obtain ⟨rfl, hcommand⟩ := command4?_eq_some.1 hknown
      exact ⟨⟨rfl, rfl⟩, rfl, .v4a hcommand huser (namesHost_iff.1 hescape) hne hname⟩
    · rename_i hescape
      rw [comes_grant_iff] at h
      obtain ⟨⟨rfl, rfl, rfl⟩, command, hknown, hne, rfl⟩ := h
      obtain ⟨rfl, hcommand⟩ := command4?_eq_some.1 hknown
      exact ⟨⟨rfl, rfl⟩, rfl, .v4 hcommand huser fun hip => hescape (namesHost_iff.2 hip)⟩
  · rintro ⟨⟨rfl, rfl⟩, hversion, hspells⟩
    generalize hoctets : 4 :: input = octets at hspells
    cases hspells with
    | v5 => cases hversion
    | v4 hcommand huser hip =>
      obtain ⟨-, rfl⟩ := List.cons_eq_cons.1 hoctets
      refine ⟨_, _, rfl, comes_readUInt16_iff.2 ⟨_, _, rfl, comes_read_iff.2 ⟨_, _, rfl, rfl,
        comes_readString_iff.2 ⟨_, _, rfl, huser, ?_⟩⟩⟩⟩
      rw [if_neg fun hescape => hip (namesHost_iff.1 hescape)]
      exact comes_grant_iff.2 ⟨⟨rfl, rfl, rfl⟩, _, command4?_eq_some.2 ⟨rfl, hcommand⟩,
        IPv4.text_ne_empty _, rfl⟩
    | v4a hcommand huser hip hne hhost =>
      obtain ⟨-, rfl⟩ := List.cons_eq_cons.1 hoctets
      refine ⟨_, _, rfl, comes_readUInt16_iff.2 ⟨_, _, rfl, comes_read_iff.2 ⟨_, _, rfl, rfl,
        comes_readString_iff.2 ⟨_, _, rfl, huser, ?_⟩⟩⟩⟩
      rw [if_pos (namesHost_iff.2 hip)]
      exact comes_readString_iff.2 ⟨_, _, rfl, hhost, comes_withHost_iff.2 ⟨_, rfl,
        comes_grant_iff.2 ⟨⟨rfl, rfl, rfl⟩, _, command4?_eq_some.2 ⟨rfl, hcommand⟩, hne, rfl⟩⟩⟩

/-- A negotiation comes to a request by reading octets that make it up, after the greeting of its
version. -/
theorem comes_negotiate_iff :
    Comes listening connect negotiate input written targets (.ok r) ↔
      (written = greeting r.version ∧ targets = [] ∧ (r.version = .v5 → listening = true)) ∧
        Spells input r := by
  rw [negotiate, comes_readByte_iff]
  constructor
  · rintro ⟨version, input, rfl, h⟩
    split at h
    · rename_i hversion
      rw [comes_negotiate4_iff] at h
      obtain ⟨⟨rfl, rfl⟩, hv4, hspells⟩ := h
      rw [hversion, hv4]
      exact ⟨⟨rfl, rfl, fun hv5 => by cases hv5⟩, hspells⟩
    · split at h
      · rename_i hversion
        rw [comes_negotiate5_iff] at h
        obtain ⟨⟨hlistening, rfl, rfl⟩, hv5, hspells⟩ := h
        rw [hversion, hv5]
        exact ⟨⟨rfl, rfl, fun _ => hlistening⟩, hspells⟩
      · exact absurd h not_comes_reject
  · rintro ⟨⟨rfl, rfl, hlistening⟩, hspells⟩
    cases hversion : r.version with
    | v4 =>
      obtain ⟨rest, rfl⟩ : ∃ rest, input = 4 :: rest := by
        cases hspells <;> first | exact ⟨_, rfl⟩ | cases hversion
      refine ⟨4, rest, rfl, ?_⟩
      rw [if_pos rfl]
      exact comes_negotiate4_iff.2 ⟨⟨rfl, rfl⟩, hversion, hspells⟩
    | v5 =>
      obtain ⟨rest, rfl⟩ : ∃ rest, input = 5 :: rest := by
        cases hspells <;> first | exact ⟨_, rfl⟩ | cases hversion
      refine ⟨5, rest, rfl, ?_⟩
      rw [if_neg (by decide), if_pos rfl]
      exact comes_negotiate5_iff.2 ⟨⟨hlistening hversion, rfl, rfl⟩, hversion, hspells⟩

/-! ## How much of it is read -/

theorem confined_grant {version : Version} {octet : UInt8} {command : Option Command}
    {host : String} {port : UInt16} :
    (grant version octet command host port : Negotiation ε).Confined 0 := by
  unfold grant
  split
  · trivial
  · split <;> trivial

theorem confined_withHost {octets : Bytes} {next : String → Negotiation ε} {most : Nat}
    (h : ∀ host, (next host).Confined most) : (withHost octets next).Confined most := by
  unfold withHost
  split
  · exact h _
  · trivial

theorem confined_readString {next : Bytes → Negotiation ε} {most : Nat}
    (h : ∀ octets, (next octets).Confined most) :
    (readString next).Confined (most + 256) := by
  refine confined_readTerminated fun octets => ?_
  cases octets with
  | none => trivial
  | some octets => exact h octets

theorem confined_readHost5 {kind : UInt8} {next : String → Negotiation ε} {most : Nat}
    (h : ∀ host, (next host).Confined most) :
    (readHost5 kind next).Confined (most + 256) := by
  unfold readHost5
  split
  · exact ⟨by omega, fun _ _ => (h _).mono (by omega)⟩
  · split
    · refine confined_readByte fun size => ?_
      have hlt := size.toNat_lt
      exact ⟨by omega, fun _ _ => confined_withHost fun host => (h host).mono (by omega)⟩
    · split
      · exact ⟨by omega, fun _ _ => (h _).mono (by omega)⟩
      · trivial

theorem confined_request5 : (request5 : Negotiation ε).Confined 262 := by
  refine confined_readByte fun version => ?_
  split
  · refine confined_readByte fun octet => confined_readByte fun reserved =>
      confined_readByte fun kind => ?_
    exact confined_readHost5 fun host => ⟨Nat.le_refl 2, fun _ _ => confined_grant⟩
  · trivial

theorem confined_negotiate : (negotiate : Negotiation ε).Confined 520 := by
  refine confined_readByte fun version => ?_
  split
  · refine confined_readByte fun octet => ⟨by decide, fun _ _ => ⟨by decide, fun ip _ => ?_⟩⟩
    refine confined_readString fun user => ?_
    simp only
    split
    · exact confined_readString fun name => confined_withHost fun host => confined_grant
    · exact confined_grant.mono (Nat.zero_le _)
  · split
    · refine confined_readByte fun count => ?_
      have hlt := count.toNat_lt
      refine ⟨by omega, fun methods _ => ?_⟩
      simp only
      split
      · exact confined_request5.mono (by omega)
      · trivial
    · trivial

end Parts

/-! ## Negotiations -/

/-- However the octets of a client arrive, a negotiation comes to a request, with certain octets
left over, just when the octets before these make up the request and the client can be answered, if
it speaks version 5.  It has answered the greeting of version 5 then, and nothing in version 4.  At
most 520 octets are read, whatever they are and whatever comes of it. -/
theorem negotiate_accepts_grammar {ε : Type} (client : Client)
    (connect : String → UInt16 → Except ε Unit) (pieces : List Bytes) :
    let e := Dialogue.hear client connect negotiate pieces
    (∀ r unread, e.progress = .finished (.ok r) ∧ e.unread = unread ↔
      ∃ w, pieces.flatten = w ++ unread ∧ Spells w r ∧
        (r.version = .v5 → client.listening = true)) ∧
    (∀ r, e.progress = .finished (.ok r) →
      e.written = (match r.version with | .v5 => [5, 0] | .v4 => []) ∧ e.targets = []) ∧
    e.unread <:+ pieces.flatten ∧ pieces.flatten.length ≤ e.unread.length + 520 := by
  intro e
  have hrun : e = Dialogue.run client connect negotiate pieces.flatten :=
    Dialogue.hear_eq_run negotiate pieces
  -- what is known of an exchange that came to a request
  have hfinished : ∀ r, e.progress = .finished (.ok r) →
      ∃ w, pieces.flatten = w ++ e.unread ∧
        (e.written = greeting r.version ∧ e.targets = [] ∧
          (r.version = .v5 → client.listening = true)) ∧ Spells w r := by
    intro r hprogress
    have heq : Dialogue.run client connect negotiate pieces.flatten =
        ⟨.finished (.ok r), e.written, e.unread, e.targets⟩ := by rw [← hrun, ← hprogress]
    obtain ⟨w, hw, hcomes⟩ := Dialogue.run_eq_finished_iff.1 heq
    exact ⟨w, hw, comes_negotiate_iff.1 hcomes⟩
  refine ⟨fun r unread => ⟨?_, ?_⟩, fun r hprogress => ?_, ?_⟩
  · rintro ⟨hprogress, rfl⟩
    obtain ⟨w, hw, ⟨-, -, hlistening⟩, hspells⟩ := hfinished r hprogress
    exact ⟨w, hw, hspells, hlistening⟩
  · rintro ⟨w, hw, hspells, hlistening⟩
    have hcomes : Dialogue.Comes client.listening connect negotiate w (greeting r.version) []
        (.ok r) := comes_negotiate_iff.2 ⟨⟨rfl, rfl, hlistening⟩, hspells⟩
    have heq := Dialogue.run_eq_finished_iff.2 ⟨w, hw, hcomes⟩
    rw [hrun, heq]
    exact ⟨rfl, rfl⟩
  · obtain ⟨w, -, ⟨hwritten, htargets, -⟩, -⟩ := hfinished r hprogress
    rw [hwritten, htargets]
    cases r.version <;> exact ⟨rfl, rfl⟩
  · rw [hrun]
    exact Dialogue.unread_of_confined confined_negotiate _

/-- A request in version 5 for a host with a name, cut in the middle of the greeting and of the
name, with an octet behind it that belongs to the tunnel. -/
theorem negotiate_accepts_name_in_pieces :
    let e := Dialogue.hear ⟨[], false, true⟩ (fun _ _ => (.ok () : Except Empty Unit)) negotiate
      [[5, 2, 1], [0, 5, 1, 0, 3, 3, 97], [46, 98, 0, 80, 9]]
    e.progress = .finished (.ok ⟨.v5, .connect, "a.b", 80⟩) ∧ e.unread = [9] ∧
      e.written = [5, 0] := by
  intro e
  obtain ⟨haccepts, hwritten, -⟩ := negotiate_accepts_grammar ⟨[], false, true⟩
    (fun _ _ => (.ok () : Except Empty Unit))
    [[5, 2, 1], [0, 5, 1, 0, 3, 3, 97], [46, 98, 0, 80, 9]]
  have hname : Names [3, 3, 97, 46, 98] "a.b" :=
    @Names.name "a.b" (by decide) (by decide)
  have hspells : Spells [5, 2, 1, 0, 5, 1, 0, 3, 3, 97, 46, 98, 0, 80]
      ⟨.v5, .connect, "a.b", 80⟩ :=
    @Spells.v5 [1, 0] [3, 3, 97, 46, 98] .connect 0 "a.b" 80 (by decide) (by decide) hname
  obtain ⟨hprogress, hunread⟩ := (haccepts _ [9]).2 ⟨_, rfl, hspells, fun _ => rfl⟩
  exact ⟨hprogress, hunread, (hwritten _ hprogress).1⟩

end Socks

end Meshway

import Meshway.Config
import Meshway.Proofs.Text.Decimal
set_option autoImplicit false

/-!
# What an environment changes (SPEC §10.2)

Each variable of the environment has one setting of its own, and values that
spell it.  Main statement: a variable other than the one for encryption sets
its own setting to what its value spells; a value that spells nothing, like a
variable that is not set, changes nothing at all; and what an environment asks
for once is not changed by asking again.  The variable for encryption is the
exception.  Any value but an exact request turns encryption off, so a value
that spells nothing is passed over only where encryption is off already, and a
request with blanks around it is not understood.
-/

namespace Meshway

/-! ## Words -/

/-- A word denotes a number: behind at most one plus sign stand ASCII digits, at least one of them,
that have this value. -/
def Decimal.Denotes (word : String) (n : Nat) : Prop :=
  ∃ sign digits, word.toList = sign ++ digits ∧ (sign = [] ∨ sign = ['+']) ∧ digits ≠ [] ∧
    (∀ d ∈ digits, d.isDigit) ∧ Nat.ofDigitChars 10 digits 0 = n

namespace Decimal

theorem unsigned?_eq_some_iff {limit n : Nat} {word : String} :
    unsigned? limit word = some n ↔ Denotes word n ∧ n ≤ limit := by
  have hplus : ¬ ('+').isDigit := by decide
  unfold unsigned?
  split
  · rename_i ds hword
    rw [digits?_eq_some_iff]
    constructor
    · rintro ⟨hne, hdigits, hvalue, hle⟩
      exact ⟨⟨['+'], ds, hword, .inr rfl, hne, hdigits, hvalue⟩, hle⟩
    · rintro ⟨⟨sign, digits, hsplit, rfl | rfl, hne, hdigits, hvalue⟩, hle⟩
      · rw [List.nil_append] at hsplit
        exact absurd (hdigits '+' (by simp [← hsplit, hword])) hplus
      · obtain rfl : ds = digits := by simpa [hword] using hsplit
        exact ⟨hne, hdigits, hvalue, hle⟩
  · rename_i hword
    rw [digits?_eq_some_iff]
    constructor
    · rintro ⟨hne, hdigits, hvalue, hle⟩
      exact ⟨⟨[], word.toList, rfl, .inl rfl, hne, hdigits, hvalue⟩, hle⟩
    · rintro ⟨⟨sign, digits, hsplit, rfl | rfl, hne, hdigits, hvalue⟩, hle⟩
      · rw [List.nil_append] at hsplit
        rw [hsplit]
        exact ⟨hne, hdigits, hvalue, hle⟩
      · exact absurd hsplit (hword digits)

theorem uint16?_eq_some_iff {n : UInt16} {word : String} :
    uint16? word = some n ↔ Denotes word n.toNat := by
  simp only [uint16?, Option.map_eq_some_iff, unsigned?_eq_some_iff]
  constructor
  · rintro ⟨m, ⟨hword, hle⟩, rfl⟩
    rwa [UInt16.toNat_ofNat_of_lt' (by simpa [UInt16.size] using Nat.lt_succ_of_le hle)]
  · intro hword
    exact ⟨n.toNat, ⟨hword, Nat.le_of_lt_succ n.toNat_lt⟩, UInt16.ofNat_toNat⟩

theorem uint64?_eq_some_iff {n : UInt64} {word : String} :
    uint64? word = some n ↔ Denotes word n.toNat := by
  simp only [uint64?, Option.map_eq_some_iff, unsigned?_eq_some_iff]
  constructor
  · rintro ⟨m, ⟨hword, hle⟩, rfl⟩
    rwa [UInt64.toNat_ofNat_of_lt' (by simpa [UInt64.size] using Nat.lt_succ_of_le hle)]
  · intro hword
    exact ⟨n.toNat, ⟨hword, Nat.le_of_lt_succ n.toNat_lt⟩, UInt64.ofNat_toNat⟩

end Decimal

namespace Text

theorem trimStart_eq_self {cs : List Char} (h : cs.any isBlank = false) : trimStart cs = cs := by
  cases cs with
  | nil => rfl
  | cons c cs =>
    rw [List.any_cons, Bool.or_eq_false_iff] at h
    simp [trimStart, h.1]

theorem trim_eq_self {s : String} (h : s.toList.any isBlank = false) : trim s = s := by
  have hback : trimStart s.toList.reverse = s.toList.reverse :=
    trimStart_eq_self (List.any_reverse.trans h)
  rw [trim, trimStart_eq_self h, hback, List.reverse_reverse, String.ofList_toList]

/-- From `A` to `z` there is no blank. -/
theorem isBlank_of_between {c : Char} (hlow : 'A'.toNat ≤ c.toNat) (hhigh : c.toNat ≤ 'z'.toNat) :
    isBlank c = false := by
  change 65 ≤ c.toNat at hlow
  change c.toNat ≤ 122 at hhigh
  simp only [isBlank, Bool.or_eq_false_iff, Bool.and_eq_false_iff, decide_eq_false_iff_not,
    beq_eq_false_iff_ne]
  omega

/-- No letter is blank, so its case does not matter. -/
theorem isBlank_toLower (c : Char) : isBlank c.toLower = isBlank c := by
  by_cases h : c.val ≥ 'A'.val ∧ c.val ≤ 'Z'.val
  · have hlow : 65 ≤ c.toNat := UInt32.le_iff_toNat_le.mp h.1
    have hhigh : c.toNat ≤ 90 := UInt32.le_iff_toNat_le.mp h.2
    have hlower : c.toLower.toNat = c.toNat + 32 :=
      calc c.toLower.toNat = (c.val + 32).toNat := congrArg Char.toNat (dif_pos h)
        _ = (c.toNat + 32) % 2 ^ 32 := UInt32.toNat_add c.val 32
        _ = c.toNat + 32 := Nat.mod_eq_of_lt (by omega)
    rw [isBlank_of_between (c := c) hlow (Nat.le_trans hhigh (by decide)),
      isBlank_of_between (c := c.toLower) (by rw [hlower]; exact Nat.le_add_right_of_le hlow)
        (by rw [hlower]; exact Nat.add_le_add_right hhigh 32)]
  · exact congrArg isBlank (dif_neg h)

theorem any_isBlank_toLower (s : String) :
    s.toLower.toList.any isBlank = s.toList.any isBlank := by
  have hlower : s.toLower.toList = s.toList.map Char.toLower := String.toList_map
  rw [hlower, List.any_map]
  exact congrArg s.toList.any (funext isBlank_toLower)

end Text

/-! ## A variable and its setting -/

namespace Variable

/-- What a variable sets. -/
def Setting : Variable → Type
  | .port | .loopbackBase => UInt16
  | .maxConnections => Option UInt64
  | .localGid | .gatewayGid | .maxPacket => UInt64
  | .encrypt => Bool
  | .logDir => Option String
  | .radioBind | .radioBridge => SocketAddress

/-- The setting of a variable. -/
def get : (v : Variable) → Config → v.Setting
  | .port, c => c.listenPort
  | .maxConnections, c => c.maxConnections
  | .localGid, c => c.localGid
  | .gatewayGid, c => c.mesh.gatewayGid
  | .maxPacket, c => c.mesh.streamPacketBytes
  | .loopbackBase, c => c.mesh.loopbackBasePort
  | .encrypt, c => c.mesh.encrypt
  | .logDir, c => c.logDir
  | .radioBind, c => c.radio.bind
  | .radioBridge, c => c.radio.bridge

/-- The settings with that of a variable replaced. -/
def put : (v : Variable) → v.Setting → Config → Config
  | .port, n, c => { c with listenPort := n }
  | .maxConnections, bound, c => { c with maxConnections := bound }
  | .localGid, n, c => { c with localGid := n }
  | .gatewayGid, n, c => { c with mesh.gatewayGid := n }
  | .maxPacket, n, c => { c with mesh.streamPacketBytes := n }
  | .loopbackBase, n, c => { c with mesh.loopbackBasePort := n }
  | .encrypt, b, c => { c with mesh.encrypt := b }
  | .logDir, dir, c => { c with logDir := dir }
  | .radioBind, a, c => { c with radio.bind := a }
  | .radioBridge, a, c => { c with radio.bridge := a }

@[simp] theorem get_put_self (v : Variable) (x : v.Setting) (c : Config) :
    v.get (v.put x c) = x := by
  cases v <;> rfl

theorem get_put_of_ne {v w : Variable} (h : w ≠ v) (x : v.Setting) (c : Config) :
    w.get (v.put x c) = w.get c := by
  cases v <;> cases w <;> first | rfl | exact absurd rfl h

end Variable

/-- The settings that only a file can change. -/
def Config.filed (c : Config) : List UInt64 :=
  [c.handshakeTimeoutSecs, c.idleTimeoutSecs, c.mesh.txPacketBytes, c.mesh.acceptTimeoutSecs]

@[simp] theorem Variable.filed_put (v : Variable) (x : v.Setting) (c : Config) :
    (v.put x c).filed = c.filed := by
  cases v <;> rfl

/-- The settings of the variables and of the file are all there are. -/
theorem Config.eq_of_get {c d : Config} (hget : ∀ v : Variable, v.get c = v.get d)
    (hfiled : c.filed = d.filed) : c = d := by
  obtain ⟨port, bound, gid, handshake, idle, dir, ⟨bind, bridge⟩,
    ⟨gateway, packet, tx, encrypt, base, accept⟩⟩ := c
  obtain ⟨port', bound', gid', handshake', idle', dir', ⟨bind', bridge'⟩,
    ⟨gateway', packet', tx', encrypt', base', accept'⟩⟩ := d
  obtain rfl : port = port' := hget .port
  obtain rfl : bound = bound' := hget .maxConnections
  obtain rfl : gid = gid' := hget .localGid
  obtain rfl : gateway = gateway' := hget .gatewayGid
  obtain rfl : packet = packet' := hget .maxPacket
  obtain rfl : base = base' := hget .loopbackBase
  obtain rfl : encrypt = encrypt' := hget .encrypt
  obtain rfl : dir = dir' := hget .logDir
  obtain rfl : bind = bind' := hget .radioBind
  obtain rfl : bridge = bridge' := hget .radioBridge
  simp only [filed, List.cons.injEq] at hfiled
  obtain ⟨rfl, rfl, rfl, rfl, -⟩ := hfiled
  rfl

/-! ## One variable after the other -/

namespace Variable

/-- What a value sets a variable to, if it is fit; every value is for encryption and for the place
of the log files. -/
def read? : (v : Variable) → String → Option v.Setting
  | .port, value | .loopbackBase, value => Decimal.uint16? (Text.trim value)
  | .maxConnections, value => bound? value
  | .localGid, value | .gatewayGid, value | .maxPacket, value => Decimal.uint64? (Text.trim value)
  | .encrypt, value => some (asksEncryption value)
  | .logDir, value => some (if value = "" then none else some value)
  | .radioBind, value | .radioBridge, value => SocketAddress.parse? (Text.trim value)

theorem set_eq (v : Variable) (value : String) (c : Config) :
    v.set value c = (v.read? value).elim c fun x => v.put x c := by
  cases v <;> rfl

/-- What an environment sets a variable to, if anything. -/
def asked (v : Variable) (env : Environment) : Option v.Setting := (env v.name).bind v.read?

theorem mem_all (v : Variable) : v ∈ all := by cases v <;> decide

end Variable

namespace Config

/-- The settings changed by one variable of an environment. -/
def heed (env : Environment) (c : Config) (v : Variable) : Config :=
  (env v.name).elim c fun value => v.set value c

theorem override_eq_foldl (env : Environment) (c : Config) :
    override env c = Variable.all.foldl (heed env) c := rfl

theorem heed_eq (env : Environment) (c : Config) (v : Variable) :
    heed env c v = (v.asked env).elim c fun x => v.put x c := by
  unfold heed Variable.asked
  cases env v.name with
  | none => rfl
  | some value => exact v.set_eq value c

theorem get_heed_self (env : Environment) (c : Config) (v : Variable) :
    v.get (heed env c v) = (v.asked env).getD (v.get c) := by
  rw [heed_eq]
  cases v.asked env with
  | none => rfl
  | some x => exact v.get_put_self x c

theorem get_heed_of_ne {v w : Variable} (h : w ≠ v) (env : Environment) (c : Config) :
    w.get (heed env c v) = w.get c := by
  rw [heed_eq]
  cases v.asked env with
  | none => rfl
  | some x => exact v.get_put_of_ne h x c

theorem filed_heed (env : Environment) (c : Config) (v : Variable) :
    (heed env c v).filed = c.filed := by
  rw [heed_eq]
  cases v.asked env with
  | none => rfl
  | some x => exact v.filed_put x c

/-- A setting whose variable is not among those looked up stays. -/
theorem get_foldl_of_notMem {vs : List Variable} {v : Variable} (h : v ∉ vs) (env : Environment)
    (c : Config) : v.get (vs.foldl (heed env) c) = v.get c := by
  induction vs generalizing c with
  | nil => rfl
  | cons w vs ih =>
    rw [List.mem_cons, not_or] at h
    rw [List.foldl_cons, ih h.2, get_heed_of_ne h.1]

theorem get_foldl {vs : List Variable} {v : Variable} (hnodup : vs.Nodup) (h : v ∈ vs)
    (env : Environment) (c : Config) :
    v.get (vs.foldl (heed env) c) = (v.asked env).getD (v.get c) := by
  induction vs generalizing c with
  | nil => cases h
  | cons w vs ih =>
    obtain ⟨hnotMem, hnodup⟩ := List.nodup_cons.mp hnodup
    rw [List.foldl_cons]
    obtain rfl | h := List.mem_cons.mp h
    · -- no variable is looked up twice, so what is set here stays
      rw [get_foldl_of_notMem hnotMem, get_heed_self]
    · have hne : v ≠ w := fun heq => hnotMem (heq ▸ h)
      rw [ih hnodup h, get_heed_of_ne hne]

/-- Each setting becomes what its own variable asks for, if that asks for anything. -/
theorem get_override (v : Variable) (env : Environment) (c : Config) :
    v.get (override env c) = (v.asked env).getD (v.get c) := by
  rw [override_eq_foldl]
  exact get_foldl (by decide) v.mem_all env c

theorem filed_override (env : Environment) (c : Config) : (override env c).filed = c.filed := by
  rw [override_eq_foldl]
  generalize Variable.all = vs
  induction vs generalizing c with
  | nil => rfl
  | cons v vs ih => rw [List.foldl_cons, ih, filed_heed]

/-- An environment that asks only for what is there already changes nothing. -/
theorem override_eq_self {env : Environment} {c : Config}
    (h : ∀ v : Variable, ∀ x ∈ v.asked env, v.get c = x) : override env c = c := by
  refine eq_of_get (fun v => ?_) (filed_override env c)
  rw [get_override]
  cases hx : v.asked env with
  | none => rfl
  | some x => exact (h v x hx).symm

theorem override_override (env : Environment) (c : Config) :
    override env (override env c) = override env c := by
  refine override_eq_self fun v x hx => ?_
  rw [get_override, Option.mem_def.mp hx, Option.getD_some]

end Config

/-! ## What values spell -/

namespace Variable

/-- The setting that a value of a variable spells.  Blanks around a value do not count, except in
the name of a directory. -/
def Spells (v : Variable) (value : String) : v.Setting → Prop :=
  let word := Text.trim value
  match v with
  | .port | .loopbackBase => fun n : UInt16 => Decimal.Denotes word n.toNat
  | .maxConnections => fun bound : Option UInt64 =>
    match bound with
    | none => word = "" ∨ word = "0" ∨ word = "unbounded"
    | some n => word ≠ "0" ∧ Decimal.Denotes word n.toNat
  | .localGid | .gatewayGid | .maxPacket => fun n : UInt64 => Decimal.Denotes word n.toNat
  | .encrypt => fun b : Bool =>
    if b then word = "1" ∨ word.toLower = "true" else word = "0" ∨ word.toLower = "false"
  | .logDir => fun dir : Option String => dir = if value = "" then none else some value
  | .radioBind | .radioBridge => fun a : SocketAddress => SocketAddress.parse? word = some a

theorem bound?_eq_some_iff {value : String} {bound : Option UInt64} :
    bound? value = some bound ↔ maxConnections.Spells value bound := by
  simp only [bound?, Spells]
  by_cases hword : Text.trim value = "" ∨ Text.trim value = "0" ∨ Text.trim value = "unbounded"
  · rw [if_pos hword]
    cases bound with
    | none => exact iff_of_true rfl hword
    | some n =>
      refine iff_of_false (by simp) ?_
      rintro ⟨hzero, hdenotes⟩
      have hread := Decimal.uint64?_eq_some_iff.mpr hdenotes
      -- of the three words for no bound, zero alone is a number too
      obtain h | h | h := hword
      · rw [h] at hread
        exact absurd hread (by simp [show Decimal.uint64? "" = none from by decide])
      · exact hzero h
      · rw [h] at hread
        exact absurd hread (by simp [show Decimal.uint64? "unbounded" = none from by decide])
  · rw [if_neg hword]
    cases bound with
    | none => exact iff_of_false (by simp) hword
    | some n =>
      rw [Option.map_eq_some_iff]
      constructor
      · rintro ⟨m, hread, hm⟩
        obtain rfl := Option.some.inj hm
        exact ⟨fun hzero => hword (.inr (.inl hzero)), Decimal.uint64?_eq_some_iff.mp hread⟩
      · rintro ⟨-, hdenotes⟩
        exact ⟨n, Decimal.uint64?_eq_some_iff.mpr hdenotes, rfl⟩

theorem read?_eq_some_iff {v : Variable} (hv : v ≠ .encrypt) {value : String} {x : v.Setting} :
    v.read? value = some x ↔ v.Spells value x := by
  cases v with
  | encrypt => exact absurd rfl hv
  | port => exact Decimal.uint16?_eq_some_iff
  | loopbackBase => exact Decimal.uint16?_eq_some_iff
  | localGid => exact Decimal.uint64?_eq_some_iff
  | gatewayGid => exact Decimal.uint64?_eq_some_iff
  | maxPacket => exact Decimal.uint64?_eq_some_iff
  | maxConnections => exact bound?_eq_some_iff
  | logDir => exact Option.some_inj.trans eq_comm
  | radioBind => exact Iff.rfl
  | radioBridge => exact Iff.rfl

theorem asksEncryption_eq_true {value : String} :
    asksEncryption value = true ↔ value = "1" ∨ value.toLower = "true" := by
  simp [asksEncryption]

theorem trim_of_asksEncryption {value : String} (h : asksEncryption value = true) :
    Text.trim value = value := by
  apply Text.trim_eq_self
  obtain rfl | hlower := asksEncryption_eq_true.mp h
  · decide
  · rw [← Text.any_isBlank_toLower, hlower]
    decide

/-- Encryption is asked for exactly by the values that spell it and have no blanks around them. -/
theorem asksEncryption_iff {value : String} :
    asksEncryption value = true ↔ encrypt.Spells value true ∧ Text.trim value = value := by
  have hspells : encrypt.Spells value true ↔
      Text.trim value = "1" ∨ (Text.trim value).toLower = "true" := by simp [Spells]
  constructor
  · intro h
    have htrim := trim_of_asksEncryption h
    exact ⟨by rwa [hspells, htrim, ← asksEncryption_eq_true], htrim⟩
  · rintro ⟨h, htrim⟩
    rwa [hspells, htrim, ← asksEncryption_eq_true] at h

/-- No value spells both that there is encryption and that there is none. -/
theorem not_spells_false_of_true {value : String} (h : encrypt.Spells value true) :
    ¬ encrypt.Spells value false := by
  simp only [Spells, if_true, if_false, Bool.false_eq_true] at h ⊢
  rintro (hfalse | hfalse) <;> obtain htrue | htrue := h
  · exact absurd (htrue.symm.trans hfalse) (by decide)
  · rw [hfalse] at htrue
    exact absurd htrue (by decide +kernel)
  · rw [htrue] at hfalse
    exact absurd hfalse (by decide +kernel)
  · exact absurd (htrue.symm.trans hfalse) (by decide)

/-! ## What is heeded -/

/-- How a variable is heeded on the way from some settings to others: its setting becomes what its
value spells, and stays when the value spells nothing or there is none. -/
structure Heeded (v : Variable) (env : Environment) (before after : Config) : Prop where
  get_of_unset : env v.name = none → v.get after = v.get before
  get_of_spells {value : String} (hvalue : env v.name = some value) {x : v.Setting}
    (hx : v.Spells value x) : v.get after = x
  get_of_unfit {value : String} (hvalue : env v.name = some value)
    (hunfit : ∀ x, ¬ v.Spells value x) : v.get after = v.get before

theorem asked_of_unset {v : Variable} {env : Environment} (h : env v.name = none) :
    v.asked env = none := by
  rw [asked, h, Option.bind_none]

theorem asked_of_value {v : Variable} {env : Environment} {value : String}
    (h : env v.name = some value) : v.asked env = v.read? value := by
  rw [asked, h, Option.bind_some]

variable {env : Environment} {c : Config}

theorem get_override_of_unset {v : Variable} (h : env v.name = none) :
    v.get (Config.override env c) = v.get c := by
  rw [Config.get_override, asked_of_unset h, Option.getD_none]

theorem heeded_of_ne_encrypt {v : Variable} (hv : v ≠ .encrypt) :
    v.Heeded env c (Config.override env c) where
  get_of_unset := get_override_of_unset
  get_of_spells {value} hvalue {x} hx := by
    have hread : v.read? value = some x := (read?_eq_some_iff hv).mpr hx
    rw [Config.get_override, asked_of_value hvalue, hread, Option.getD_some]
  get_of_unfit {value} hvalue hunfit := by
    have hread : v.read? value = none :=
      Option.eq_none_iff_forall_not_mem.mpr fun x hx => hunfit x ((read?_eq_some_iff hv).mp hx)
    rw [Config.get_override, asked_of_value hvalue, hread, Option.getD_none]

theorem encrypt_override_of_value {value : String} (h : env encrypt.name = some value) :
    (Config.override env c).mesh.encrypt = asksEncryption value := by
  have hget := Config.get_override encrypt env c
  rw [asked_of_value h] at hget
  exact hget

theorem encrypt_heeded_iff :
    encrypt.Heeded env c (Config.override env c) ↔
      ∀ value, env encrypt.name = some value →
        (encrypt.Spells value true → Text.trim value = value) ∧
        ((∀ b, ¬ encrypt.Spells value b) → c.mesh.encrypt = false) := by
  have hafter {value : String} (hvalue : env encrypt.name = some value) :
      encrypt.get (Config.override env c) = asksEncryption value := encrypt_override_of_value hvalue
  constructor
  · intro hheeded value hvalue
    refine ⟨fun htrue => ?_, fun hunfit => ?_⟩
    · have hasks := (hafter hvalue).symm.trans (hheeded.get_of_spells hvalue htrue)
      exact (asksEncryption_iff.mp hasks).2
    · have hasks := (hheeded.get_of_unfit hvalue hunfit).symm.trans (hafter hvalue)
      refine hasks.trans (Bool.eq_false_iff.mpr fun htrue => ?_)
      exact hunfit true (asksEncryption_iff.mp htrue).1
  · intro h
    refine ⟨get_override_of_unset, fun {value} hvalue {x} hx => ?_, fun {value} hvalue hunfit => ?_⟩
    · refine (hafter hvalue).trans ?_
      cases (x : Bool) with
      | true => exact asksEncryption_iff.mpr ⟨hx, (h value hvalue).1 hx⟩
      | false =>
        refine Bool.eq_false_iff.mpr fun htrue => ?_
        exact not_spells_false_of_true (asksEncryption_iff.mp htrue).1 hx
    · refine (hafter hvalue).trans (Eq.trans ?_ ((h value hvalue).2 hunfit).symm)
      refine Bool.eq_false_iff.mpr fun htrue => ?_
      exact hunfit true (asksEncryption_iff.mp htrue).1

end Variable

namespace Config

/-- An environment of nothing but unfit values, none of them for encryption, changes nothing. -/
theorem override_of_unfit {env : Environment} {c : Config}
    (h : ∀ v : Variable, ∀ value, env v.name = some value →
      v ≠ .encrypt ∧ ∀ x, ¬ v.Spells value x) : override env c = c := by
  refine eq_of_get (fun v => ?_) (filed_override env c)
  cases hvalue : env v.name with
  | none => exact Variable.get_override_of_unset hvalue
  | some value =>
    obtain ⟨hv, hunfit⟩ := h v value hvalue
    exact (Variable.heeded_of_ne_encrypt hv).get_of_unfit hvalue hunfit

/-- What an environment does to settings.  Every variable but one is heeded, and what is no
variable's setting stays, so that values that spell nothing change nothing; asking twice is asking
once.  Encryption is on afterwards exactly when the value for it asks for it and has no blanks
around it.  So that variable is heeded just when no blanks hide a request, and a value that spells
nothing finds encryption off. -/
theorem override_heeds_all_variables_but_encrypt (env : Environment) (c : Config) :
    (∀ v : Variable, v ≠ .encrypt → v.Heeded env c (override env c)) ∧
    (override env c).filed = c.filed ∧
    ((∀ v : Variable, ∀ value, env v.name = some value →
      v ≠ .encrypt ∧ ∀ x, ¬ v.Spells value x) → override env c = c) ∧
    override env (override env c) = override env c ∧
    (∀ value, env Variable.encrypt.name = some value →
      ((override env c).mesh.encrypt = true ↔
        Variable.encrypt.Spells value true ∧ Text.trim value = value)) ∧
    (Variable.encrypt.Heeded env c (override env c) ↔
      ∀ value, env Variable.encrypt.name = some value →
        (Variable.encrypt.Spells value true → Text.trim value = value) ∧
        ((∀ b, ¬ Variable.encrypt.Spells value b) → c.mesh.encrypt = false)) := by
  refine ⟨fun v hv => Variable.heeded_of_ne_encrypt hv, filed_override env c, override_of_unfit,
    override_override env c, fun value hvalue => ?_, Variable.encrypt_heeded_iff⟩
  rw [Variable.encrypt_override_of_value hvalue, Variable.asksEncryption_iff]

/-- Of three variables, one has blanks around a number, one spells nothing, and one is for
encryption. -/
theorem override_heeds_three_variables :
    let env : Environment := fun name =>
      [("MESH_PROXY_PORT", " 9050\n"), ("MESH_PROXY_MAX_PACKET", "not a number"),
        ("MESH_PROXY_ENCRYPT", "TRUE")].lookup name
    (override env default).listenPort = 9050 ∧
    (override env default).mesh.streamPacketBytes = 150 ∧
    (override env default).mesh.encrypt = true ∧
    Variable.encrypt.Heeded env default (override env default) := by
  intro env
  obtain ⟨hheeded, -, -, -, hencrypt, hiff⟩ := override_heeds_all_variables_but_encrypt env default
  have hword : Text.trim "TRUE" = "TRUE" := by decide +kernel
  have hport : Variable.port.Spells " 9050\n" (9050 : UInt16) :=
    Decimal.uint16?_eq_some_iff.mp (by decide +kernel)
  have hpacket : ∀ x, ¬ Variable.maxPacket.Spells "not a number" x := fun x hx =>
    absurd (Decimal.uint64?_eq_some_iff.mpr hx) (by
      simp [show Decimal.uint64? (Text.trim "not a number") = none from by decide +kernel])
  have htrue : Variable.encrypt.Spells "TRUE" true := by
    refine Or.inr ?_
    rw [hword]
    decide +kernel
  refine ⟨(hheeded .port (by decide)).get_of_spells rfl hport,
    (hheeded .maxPacket (by decide)).get_of_unfit rfl hpacket,
    (hencrypt "TRUE" rfl).mpr ⟨htrue, hword⟩, hiff.mpr ?_⟩
  rintro value hvalue
  obtain rfl : "TRUE" = value := Option.some.inj hvalue
  exact ⟨fun _ => hword, fun _ => rfl⟩

/-- A value that spells nothing turns off the encryption that a file has asked for. -/
theorem override_turns_encryption_off :
    let c : Config := { default with mesh.encrypt := true }
    let env : Environment := fun name => [("MESH_PROXY_ENCRYPT", "on")].lookup name
    (∀ b, ¬ Variable.encrypt.Spells "on" b) ∧ (override env c).mesh.encrypt = false ∧
    ¬ Variable.encrypt.Heeded env c (override env c) := by
  intro c env
  have hword : Text.trim "on" = "on" := by decide +kernel
  have hlower : "on".toLower = "on" := by decide +kernel
  have hunfit : ∀ b : Bool, ¬ Variable.encrypt.Spells "on" b := by
    intro b
    cases b <;> simp [Variable.Spells, hword, hlower]
  have hoff : (override env c).mesh.encrypt = false := by
    have hvalue : env Variable.encrypt.name = some "on" := rfl
    rw [Variable.encrypt_override_of_value hvalue]
    decide +kernel
  refine ⟨hunfit, hoff, fun hheeded => ?_⟩
  have hsame : (override env c).mesh.encrypt = true := hheeded.get_of_unfit rfl hunfit
  rw [hoff] at hsame
  exact Bool.false_ne_true hsame

end Config

end Meshway

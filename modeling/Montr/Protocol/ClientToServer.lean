import Mathlib
import Montr.Client.ClientMessage
import Montr.Server.MessageSchemas

namespace Montr.Protocol

open Client.Protocol Server Wire Wire.Schema

/-!
# From the player to the server

What the server makes of the messages that the player builds.

* `nearestDouble`, `FloatText` — the numbers that `JSON.parse` reads from numerals;
* `Received` — the server accepts the message, and has the same values;
* `Clean` — what the fields of a message must be for that;
* `received_iff_clean` — every message that the player builds.
-/

/-! ### Numerals -/

/-- The double next to a natural number, the even one of two. -/
def nearestDouble (n : Nat) : Nat :=
  let unit := 2 ^ (n.log2 - 52)
  let low := n / unit
  let rest := n % unit
  (if 2 * rest < unit ∨ 2 * rest = unit ∧ low % 2 = 0 then low else low + 1) * unit

/-- Up to 53 bits there is no loss. -/
theorem nearestDouble_of_lt {n : Nat} (h : n < 2 ^ 53) : nearestDouble n = n := by
  have hunit : n.log2 - 52 = 0 := by
    by_cases hzero : n = 0
    · simp [hzero]
    · have hlog := (Nat.log2_lt hzero).mpr h
      omega
  simp [nearestDouble, hunit, Nat.mod_one]

example : nearestDouble (2 ^ 53 + 1) = 2 ^ 53 := by decide

/-- The double that `JSON.parse` reads from the numeral of an `f32`: in the same order, and the
    same for small integers. -/
structure FloatText where
  f32 : ℚ → ℚ
  strictMono : StrictMono f32
  f32_zero : f32 0 = 0
  f32_hundred : f32 100 = 100

namespace FloatText

variable (text : FloatText)

/-- The number of a numeral, exactly. A float's numeral stands for the double read from it. -/
def exact : Numeral → ℚ
  | .int n => n
  | .f32 x => text.f32 x
  | .f64 x => x

/-- The number that `JSON.parse` reads. -/
def read : Numeral → ℚ
  | .int n => n.sign * nearestDouble n.natAbs
  | .f32 x => text.f32 x
  | .f64 x => x

/-- The value of a number of the player. -/
def value : RustNumber → Option ℚ
  | .numeral n => some (text.exact n)
  | .infinite _ | .nan => none

/-- What the server reads where the player wrote a number. -/
def received (x : RustNumber) : Wire.Json ℚ := x.write.subst fun n => .number (text.read n)

end FloatText

/-- `JSON.parse`. -/
def jsonParse (text : FloatText) (v : Wire.Json Numeral) : Wire.Json ℚ :=
  v.subst fun n => .number (text.read n)

/-- **Received as it was sent.** -/
def Received (text : FloatText) (uuid : String → Bool) (m : ClientMessage) : Prop :=
  ∃ parsed, parseClientMessage uuid (jsonParse text m.toJson) = some parsed ∧
    Same text.value m.tree parsed

/-- A number that the player can write and the server reads as it is. -/
def Plain : RustNumber → Prop
  | .numeral (.int n) => nearestDouble n.natAbs = n.natAbs
  | .numeral (.f32 _) | .numeral (.f64 _) => True
  | .infinite _ | .nan => False

/-- What the schemas ask of one variant only. -/
def InRange : ClientMessage → Prop
  | .statusUpdate m => ∀ x, m.position = some (.finite x) → 0 ≤ x
  | .error m =>
    m.error ≠ "" ∧ ∀ map ∈ m.context, ∀ e ∈ map.entries, e.1 ≠ "__proto__"
  | .telemetry m => ∀ x, m.cpuPct = .finite x → 0 ≤ x ∧ x ≤ 100
  | .register _ | .heartbeat _ | .logEvent _ => True

/-- The condition. -/
structure Clean (uuid : String → Bool) (m : ClientMessage) : Prop where
  uuid : uuid m.clientId = true
  numbers : m.tree.Each Plain
  inRange : InRange m

section

variable {text : FloatText} {uuid : String → Bool} {check : ℚ → Bool} {schema : Schema ℚ}

/-! ### Numbers -/

/-- The sign is no loss. -/
theorem read_int_iff (n : Int) :
    text.read (.int n) = n ↔ nearestDouble n.natAbs = n.natAbs := by
  obtain rfl | hne := eq_or_ne n 0
  · simp [FloatText.read, nearestDouble]
  · have hsign : n.sign ≠ 0 := Int.sign_eq_zero_iff_zero.not.mpr hne
    have hself : (n : ℚ) = n.sign * (n.natAbs : Int) := by
      exact_mod_cast (Int.sign_mul_natAbs n).symm
    rw [FloatText.read, hself, mul_right_inj' (by exact_mod_cast hsign)]
    norm_cast

theorem survives_iff_plain {x : RustNumber} : Survives text.received text.value x ↔ Plain x := by
  cases x with
  | infinite | nan =>
    -- `serde_json` writes `null`
    refine iff_of_false ?_ id
    rintro ⟨_, hwrite, -⟩
    cases hwrite
  | numeral n =>
    have hsurvives : Survives text.received text.value (.numeral n) ↔
        text.read n = text.exact n := by
      constructor
      · rintro ⟨y, hwrite, hvalue⟩
        obtain rfl := Option.some.inj hvalue
        exact Json.number.inj hwrite
      · intro h
        exact ⟨_, congrArg Json.number h, rfl⟩
    rw [hsurvives]
    cases n with
    | f32 | f64 => exact iff_of_true rfl trivial
    | int n => exact read_int_iff n

/-- A number that passes its check whatever it is. -/
theorem carries_plain_number {x : RustNumber} (hcheck : ∀ y, text.value x = some y → check y) :
    Carries text.received text.value (Schema.number check) (.number x) ↔ Plain x := by
  rw [carries_number, ← survives_iff_plain]
  constructor
  · rintro ⟨y, hwrite, hvalue, -⟩
    exact ⟨y, hwrite, hvalue⟩
  · rintro ⟨y, hwrite, hvalue⟩
    exact ⟨y, hwrite, hvalue, hcheck y hvalue⟩

theorem carries_anyNumber {x : RustNumber} :
    Carries text.received text.value (Schema.number anyNumber) (.number x) ↔ Plain x :=
  carries_plain_number fun _ _ => rfl

theorem carries_count {n : Nat} :
    Carries text.received text.value (Schema.number nonNegative) (integer n) ↔
      (integer n).Each Plain := by
  refine carries_plain_number fun y hy => ?_
  obtain rfl : ((n : Int) : ℚ) = y := Option.some.inj hy
  exact decide_eq_true (by exact_mod_cast Int.natCast_nonneg n)

/-- A small unsigned integer. -/
theorem plain_uint32 (n : UInt32) : Plain (.numeral (.int n.toNat)) := by
  refine nearestDouble_of_lt ?_
  have hlt := n.toNat_lt
  rw [Int.natAbs_natCast]
  omega

/-- A float that must be in a range. -/
theorem carries_toNumber {precision : ℚ → Numeral} {x : RustFloat}
    (hread : ∀ q, text.read (precision q) = text.exact (precision q)) :
    Carries text.received text.value (Schema.number check) (.number (x.toNumber precision)) ↔
      ∃ q, x = .finite q ∧ check (text.exact (precision q)) := by
  rw [carries_number]
  cases x with
  | finite q =>
    constructor
    · rintro ⟨y, -, hvalue, hcheck⟩
      obtain rfl := Option.some.inj hvalue
      exact ⟨q, rfl, hcheck⟩
    · rintro ⟨q', hq, hcheck⟩
      obtain rfl := RustFloat.finite.inj hq
      exact ⟨_, congrArg Json.number (hread q), rfl, hcheck⟩
  | infinite | nan =>
    refine iff_of_false ?_ ?_
    · rintro ⟨_, hwrite, -⟩
      cases hwrite
    · rintro ⟨q, hq, -⟩
      cases hq

theorem carries_f64 {x : RustFloat} :
    Carries text.received text.value (Schema.number check) x.f64 ↔
      ∃ q, x = .finite q ∧ check q :=
  carries_toNumber fun _ => rfl

theorem carries_f32 {x : RustFloat} :
    Carries text.received text.value (Schema.number check) x.f32 ↔
      ∃ q, x = .finite q ∧ check (text.f32 q) :=
  carries_toNumber fun _ => rfl

/-- The bounds of a percentage are bounds of the float. -/
theorem percentage_iff (q : ℚ) :
    (nonNegative (text.f32 q) && decide (text.f32 q ≤ 100)) = true ↔ 0 ≤ q ∧ q ≤ 100 := by
  rw [Bool.and_eq_true, nonNegative, decide_eq_true_eq, decide_eq_true_eq]
  refine and_congr ?_ ?_
  · conv_lhs => rw [← text.f32_zero]
    exact text.strictMono.le_iff_le
  · conv_lhs => rw [← text.f32_hundred]
    exact text.strictMono.le_iff_le

/-! ### Payloads -/

theorem carries_capabilities (c : ClientCapabilities) :
    Carries text.received text.value clientCapabilitiesSchema c.tree := by
  rw [clientCapabilitiesSchema, ClientCapabilities.tree, carries_object (by simp) (by simp)]
  simp

theorem carries_currentMedia (c : CurrentMediaInfo) :
    Carries text.received text.value currentMediaInfoSchema c.tree := by
  rw [currentMediaInfoSchema, CurrentMediaInfo.tree, carries_object (by simp) (by simp)]
  simp [anyText, integer, carries_anyNumber, plain_uint32]

theorem carries_disk (d : TelemetryDiskSample) :
    Carries text.received text.value telemetryDiskSchema d.tree ↔ d.tree.Each Plain := by
  rw [telemetryDiskSchema, TelemetryDiskSample.tree, carries_object (by simp) (by simp)]
  simp [anyText, carries_count]

theorem carries_temp (t : TelemetryTempSample) :
    Carries text.received text.value telemetryTempSchema t.tree ↔ t.tree.Each Plain := by
  rw [telemetryTempSchema, TelemetryTempSample.tree, carries_object (by simp) (by simp)]
  simp [anyText, RustFloat.f32, carries_anyNumber]

theorem each_orNull {P : RustNumber → Prop} {o : Option (Wire.Json RustNumber)} :
    (∀ v, orNull o = some v → v.Each P) ↔ ∀ v, o = some v → v.Each P := by
  cases o <;> simp [orNull]

/-- An `Option` under a schema that takes `null`. -/
theorem carries_orNull {o : Option (Wire.Json RustNumber)} {key : String}
    (hnull : schema .null = none) (ho : ∀ v ∈ o, v ≠ .null) :
    (required key (nullable schema)).Carries text.received text.value (orNull o) ↔
      ∀ v ∈ o, Carries text.received text.value schema v :=
  carries_nullable hnull ho

theorem carries_net (n : TelemetryNetSample) :
    Carries text.received text.value telemetryNetSchema n.tree ↔ n.tree.Each Plain := by
  rw [telemetryNetSchema, TelemetryNetSample.tree, carries_object (by simp) (by simp)]
  have hrtt : (required "last_rtt_ms" (nullable (Schema.number nonNegative))).Carries text.received
      text.value (orNull (n.lastRttMs.map fun n => integer n.toNat)) ↔
        ∀ v ∈ n.lastRttMs.map fun n => integer n.toNat, v.Each Plain := by
    rw [carries_orNull rfl (by simp [integer])]
    simp [carries_count]
  simp [hrtt, each_orNull, carries_count]

theorem carries_mpv (m : TelemetryMpvSample) :
    Carries text.received text.value telemetryMpvSchema m.tree ↔ m.tree.Each Plain := by
  rw [telemetryMpvSchema, TelemetryMpvSample.tree, carries_object (by simp) (by simp)]
  have herror : (required "last_decoder_error" (nullable (string anyText))).Carries text.received
      text.value (orNull (m.lastDecoderError.map .string)) := by
    rw [carries_orNull rfl (by simp)]
    simp [anyText]
  simp [herror, each_orNull, carries_count]

theorem carries_process (p : TelemetryProcessSample) :
    Carries text.received text.value telemetryProcessSchema p.tree ↔ p.tree.Each Plain := by
  rw [telemetryProcessSchema, TelemetryProcessSample.tree, carries_object (by simp) (by simp)]
  simp [carries_count]

/-- A context loses no entry but one. -/
theorem carries_context (map : ValueMap) :
    Carries text.received text.value (record unknown) map.tree ↔
      map.tree.Each Plain ∧ ∀ e ∈ map.entries, e.1 ≠ "__proto__" := by
  rw [ValueMap.tree, carries_record, Json.each_object]
  have hplain : Survives text.received text.value = Plain :=
    funext fun x => propext survives_iff_plain
  simp only [carries_unknown, hplain, List.forall_mem_map, forall_and]
  exact and_comm

/-! ### Messages -/

theorem nonEmpty_iff {s : String} : nonEmpty s = true ↔ s ≠ "" := decide_eq_true_iff

theorem carries_timestamp {n : Nat} :
    Carries text.received text.value (Schema.number anyNumber) (integer n) ↔
      (integer n).Each Plain :=
  carries_anyNumber

theorem each_f64 {x : RustFloat} : x.f64.Each Plain ↔ ∃ q, x = .finite q := by
  cases x <;> simp [RustFloat.f64, RustFloat.toNumber, Plain]

theorem each_f32 {x : RustFloat} : x.f32.Each Plain ↔ ∃ q, x = .finite q := by
  cases x <;> simp [RustFloat.f32, RustFloat.toNumber, Plain]

theorem carries_register (m : RegisterMessage) :
    Carries text.received text.value (registerMessageSchema uuid) (ClientMessage.register m).tree ↔
      uuid m.clientId = true ∧ m.version ≠ "" ∧ ∀ name ∈ m.name, name ≠ "" := by
  rw [registerMessageSchema, ClientMessage.tree, ClientMessage.type, ClientMessage.fields,
    RegisterMessage.fields, carries_object (by simp) (by simp)]
  simp [literal, nonEmpty_iff, carries_capabilities]

theorem carries_heartbeat (m : HeartbeatMessage) :
    Carries text.received text.value (heartbeatMessageSchema uuid)
        (ClientMessage.heartbeat m).tree ↔
      uuid m.clientId = true ∧ (ClientMessage.heartbeat m).tree.Each Plain := by
  rw [heartbeatMessageSchema, ClientMessage.tree, ClientMessage.type, ClientMessage.fields,
    HeartbeatMessage.fields, carries_object (by simp) (by simp)]
  simp [literal, carries_timestamp]

/-- A position is finite and not negative. -/
theorem carries_position {position : Option RustFloat} :
    (required "position" (nullable (Schema.number nonNegative))).Carries text.received text.value
        (orNull (position.map (·.f64))) ↔
      (∀ v, position.map (·.f64) = some v → v.Each Plain) ∧
        ∀ x, position = some (.finite x) → 0 ≤ x := by
  rw [carries_orNull rfl (by simp [RustFloat.f64])]
  cases position with
  | none => simp
  | some x =>
    simp only [Option.map_some, Option.mem_some_iff, forall_eq', Option.some.injEq, carries_f64,
      each_f64, nonNegative, decide_eq_true_eq]
    constructor
    · rintro ⟨q, rfl, hq⟩
      exact ⟨⟨q, rfl⟩, fun x hx => RustFloat.finite.inj hx ▸ hq⟩
    · rintro ⟨⟨q, rfl⟩, hq⟩
      exact ⟨q, rfl, hq q rfl⟩

theorem carries_statusUpdate (m : StatusUpdateMessage) :
    Carries text.received text.value (statusUpdateMessageSchema uuid)
        (ClientMessage.statusUpdate m).tree ↔
      uuid m.clientId = true ∧ (ClientMessage.statusUpdate m).tree.Each Plain ∧
        InRange (.statusUpdate m) := by
  rw [statusUpdateMessageSchema, ClientMessage.tree, ClientMessage.type, ClientMessage.fields,
    StatusUpdateMessage.fields, carries_object (by simp) (by simp)]
  have hmedia : (required "currentMedia" (nullable currentMediaInfoSchema)).Carries text.received
      text.value (orNull (m.currentMedia.map (·.tree))) := by
    rw [carries_orNull rfl (by simp [CurrentMediaInfo.tree, Json.struct])]
    simp [carries_currentMedia]
  have hplain : ∀ media : CurrentMediaInfo, media.tree.Each Plain := by
    simp [CurrentMediaInfo.tree, integer, plain_uint32]
  simp [literal, hmedia, hplain, carries_position, each_orNull, carries_timestamp, InRange]
  tauto

theorem carries_telemetry (m : TelemetryMessage) :
    Carries text.received text.value (telemetryMessageSchema uuid)
        (ClientMessage.telemetry m).tree ↔
      uuid m.clientId = true ∧ (ClientMessage.telemetry m).tree.Each Plain ∧
        InRange (.telemetry m) := by
  rw [telemetryMessageSchema, ClientMessage.tree, ClientMessage.type, ClientMessage.fields,
    TelemetryMessage.fields, carries_object (by simp) (by simp)]
  have hcpu : Carries text.received text.value
      (Schema.number fun x => nonNegative x && decide (x ≤ 100)) m.cpuPct.f32 ↔
        m.cpuPct.f32.Each Plain ∧ InRange (.telemetry m) := by
    simp only [carries_f32, percentage_iff, each_f32, InRange]
    constructor
    · rintro ⟨q, hcpu, hq⟩
      exact ⟨⟨q, hcpu⟩, fun x hx => RustFloat.finite.inj (hcpu.symm.trans hx) ▸ hq⟩
    · rintro ⟨⟨q, hcpu⟩, hq⟩
      exact ⟨q, hcpu, hq q hcpu⟩
  simp [literal, hcpu, carries_count, carries_disk, carries_temp, carries_net, carries_mpv,
    carries_process, carries_timestamp]
  tauto

theorem carries_error (m : ErrorMessage) :
    Carries text.received text.value (errorMessageSchema uuid) (ClientMessage.error m).tree ↔
      uuid m.clientId = true ∧ (ClientMessage.error m).tree.Each Plain ∧ InRange (.error m) ∧
        ∀ source ∈ m.source, nonEmpty source ∧ utf16Length source ≤ 64 := by
  rw [errorMessageSchema, ClientMessage.tree, ClientMessage.type, ClientMessage.fields,
    ErrorMessage.fields, carries_object (by simp) (by simp)]
  have hseverity : ∀ s : ErrorSeverity, s.text = "warn" ∨ s.text = "error" ∨ s.text = "fatal" := by
    intro s
    cases s <;> simp [ErrorSeverity.text]
  simp [literal, nonEmpty_iff, carries_context, enum, hseverity, carries_timestamp, InRange,
    imp_and, forall_and]
  tauto

theorem carries_logEvent (m : LogEventMessage) :
    Carries text.received text.value (logEventMessageSchema uuid)
        (ClientMessage.logEvent m).tree ↔
      uuid m.clientId = true ∧ (ClientMessage.logEvent m).tree.Each Plain ∧
        m.level ∈ ["warn", "error"] := by
  rw [logEventMessageSchema, ClientMessage.tree, ClientMessage.type, ClientMessage.fields,
    LogEventMessage.fields, carries_object (by simp) (by simp)]
  simp [literal, enum, anyText, carries_timestamp, and_comm]

theorem received_iff {m : ClientMessage} :
    Received text uuid m ↔ Carries text.received text.value (clientMessageSchema uuid) m.tree := by
  rw [Received, jsonParse, ClientMessage.toJson, Json.subst_subst]
  rfl

/-- The sources that the player names fit. -/
theorem errorSources_fit : ∀ source ∈ errorSources, nonEmpty source ∧ utf16Length source ≤ 64 := by
  decide

/-- **From the player to the server**: a message that the player builds is accepted, as the same
    variant with the same values, exactly when the id of the configuration is a UUID for the
    schema, every number is finite and every integer a double, a position is not negative, the
    CPU load is a percentage, an error has a text, and no key of its context is `__proto__`. -/
theorem received_iff_clean (text : FloatText) (uuid : String → Bool) {config : ClientConfig}
    {m : ClientMessage} (built : Built config m) : Received text uuid m ↔ Clean uuid m := by
  have hclean : Clean uuid m ↔ uuid m.clientId = true ∧ m.tree.Each Plain ∧ InRange m :=
    ⟨fun h => ⟨h.uuid, h.numbers, h.inRange⟩, fun ⟨huuid, hnumbers, hrange⟩ =>
      ⟨huuid, hnumbers, hrange⟩⟩
  rw [received_iff, hclean, clientMessageSchema]
  cases built with
  | register =>
    refine (carries_discriminatedUnion rfl).trans ((carries_register _).trans ?_)
    have hversion : VERSION ≠ "" := by decide
    simp [hversion, config.name_ne_empty, InRange, ClientMessage.clientId, ClientMessage.tree,
      ClientMessage.fields, RegisterMessage.fields, ClientCapabilities.tree]
  | statusUpdate media position isPlaying now =>
    exact (carries_discriminatedUnion rfl).trans (carries_statusUpdate _)
  | heartbeat now =>
    refine (carries_discriminatedUnion rfl).trans ((carries_heartbeat _).trans ?_)
    simp [InRange, ClientMessage.clientId]
  | error error context now =>
    refine (carries_discriminatedUnion rfl).trans ((carries_error _).trans ?_)
    simp [ClientMessage.clientId]
  | @errorDetailed source hsource severity error context now =>
    refine (carries_discriminatedUnion rfl).trans ((carries_error _).trans ?_)
    have hfits := errorSources_fit source hsource
    simp [ClientMessage.clientId, hfits]
  | telemetry =>
    exact (carries_discriminatedUnion rfl).trans (carries_telemetry _)
  | logEvent hlevel target message now =>
    refine (carries_discriminatedUnion rfl).trans ((carries_logEvent _).trans ?_)
    have hlevel := List.mem_reverse.mpr hlevel
    simp only [List.reverse_cons, List.reverse_nil, List.nil_append,
      List.singleton_append] at hlevel
    simp [ClientMessage.clientId, hlevel, InRange]

end

/-! ### A sensor that cannot be read -/

def lobby : ClientConfig := ⟨"550e8400-e29b-41d4-a716-446655440000", "Lobby", by decide⟩

/-- A minute's telemetry of a player with one sensor. -/
def lobbyTelemetry (celsius : RustFloat) : ClientMessage :=
  .telemetry ⟨lobby.id, .finite (25 / 2), 512, 2048, [⟨"/", 4096, 65536⟩], [⟨"cpu", celsius⟩],
    ⟨0, some 35, 0⟩, ⟨true, 0, none⟩, ⟨3600, 3600, 0⟩, 1700000000000⟩

theorem received_iff_clean_lobby :
    Received ⟨id, strictMono_id, rfl, rfl⟩ (· == lobby.id) (lobbyTelemetry (.finite 45)) := by
  have built : Built lobby (lobbyTelemetry (.finite 45)) := .telemetry ..
  refine (received_iff_clean _ _ built).mpr ⟨beq_self_eq_true _, ?_, ?_⟩
  · simp [lobbyTelemetry, ClientMessage.tree, ClientMessage.fields, TelemetryMessage.fields,
      TelemetryDiskSample.tree, TelemetryTempSample.tree, TelemetryNetSample.tree,
      TelemetryMpvSample.tree, TelemetryProcessSample.tree, orNull, each_f32, integer, Plain,
      nearestDouble_of_lt]
  · intro x hx
    obtain rfl := RustFloat.finite.inj hx
    constructor <;> norm_num

/-- **Counterexample.** A sensor that cannot be read has no temperature but NaN, and the telemetry
    of the player is not received, whatever a UUID is. -/
theorem not_received_nan : Built lobby (lobbyTelemetry .nan) ∧
    ∀ text uuid, ¬ Received text uuid (lobbyTelemetry .nan) := by
  refine ⟨.telemetry .., fun text uuid hreceived => ?_⟩
  rw [received_iff, clientMessageSchema] at hreceived
  have hcarries := (carries_discriminatedUnion rfl).mp hreceived
  obtain ⟨-, hplain, -⟩ := (carries_telemetry _).mp hcarries
  simp [ClientMessage.tree, ClientMessage.fields, TelemetryMessage.fields,
    TelemetryTempSample.tree, each_f32] at hplain

end Montr.Protocol

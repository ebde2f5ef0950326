import FlowHost.Config.Load
import FlowHost.Proofs.Overlay
import FlowHost.Proofs.Spelling

/-!
# The layers of a configuration

A configuration is read field by field, each from the setting of its name (`AgentConfig.field_eq`). So a field whose
setting no variable leads to is what it is without the environment, and a field that takes a text has what a
variable gives, as far as a variable can give a text.

* `Environment.written`: **the text that a variable gives**, its own unless that looks like a truth value or a number.
* `AgentConfig.field_text`: a field that takes a text has the one of its setting.
* `AgentConfig.load_layers`: **what the environment makes of a configuration.**
* `AgentConfig.numeral_rewritten`: an identifier that is not taken as it is.
-/

namespace FlowHost

/-- **The text that a variable gives.** A truth value and a number are written out. -/
def Environment.written (value : String) : String :=
  if lower value = "true" then "true"
  else if lower value = "false" then "false"
  else
    match readLong? value.toList with
    | some i => toString i
    | none =>
      match readReal? value.toList with
      | some x => x.plain
      | none => value

/-- The value of a variable, as a text. -/
theorem Environment.text_valueOf {n : String} (hn : n ≠ listSetting) (value : String) :
    (valueOf n value).text? = some (written value) := by
  unfold valueOf written
  simp only
  split
  · rfl
  · split
    · rfl
    · cases readLong? value.toList with
      | some i => rfl
      | none =>
        cases readReal? value.toList with
        | some x => rfl
        | none => simp only [Setting.text?]

namespace AgentConfig

/-! ### Fields -/

/-- The field of a name, as it stands in the configuration's document. -/
def field (c : AgentConfig) (name : String) : Option Json := c.members.lookup name

/-- What a field that takes a text makes of its setting. -/
def readText (standard : String) (s : Option Setting) : Option Json :=
  (orStandard standard Setting.text? s).map .ofText

/-- What a field that takes a text or nothing makes of its setting. -/
def readTextOrNull (standard : Option String) (s : Option Setting) : Option Json :=
  (orStandard standard (nullable Setting.text?) s).map (Json.orNull .ofText)

/-- What a field that takes a truth value makes of its setting. -/
def readBool (standard : Bool) (s : Option Setting) : Option Json :=
  (orStandard standard Setting.bool? s).map .bool

/-- What a field that takes a truth value or nothing makes of its setting. -/
def readBoolOrNull (standard : Option Bool) (s : Option Setting) : Option Json :=
  (orStandard standard (nullable Setting.bool?) s).map (Json.orNull .bool)

/-- What a field of 32 bits makes of its setting. -/
def readWord (standard : UInt32) (s : Option Setting) : Option Json :=
  (orStandard standard word? s).map fun n => .ofInt n.toNat

/-- What a field of 64 bits makes of its setting. -/
def readLong (standard : UInt64) (s : Option Setting) : Option Json :=
  (orStandard standard long? s).map fun n => .ofInt n.toNat

/-- **How each field is read from the setting of its name.** -/
def readers : List (String × (Option Setting → Option Json)) :=
  let d := standard
  [("device_id", readText d.deviceId),
    ("access_key", readTextOrNull d.accessKey),
    ("access_secret", readTextOrNull d.accessSecret),
    ("broker_host", readText d.brokerHost),
    ("broker_port", fun s => (orStandard d.brokerPort
      (fun s => (s.unsigned? (Nat.pow 2 16 - 1)).map UInt16.ofNat) s).map fun n => .ofInt n.toNat),
    ("broker_tls", readBool d.brokerTls),
    ("keep_alive_secs", readLong d.keepAliveSecs),
    ("base_topic", readText d.baseTopic),
    ("extra_topics", fun s => (orStandard d.extraTopics Setting.texts? s).map fun ts =>
      .array (ts.map .ofText)),
    ("artifact_path", readTextOrNull d.artifactPath),
    ("storage_path", readTextOrNull d.storagePath),
    ("trace_level", fun s => (orStandard d.traceLevel
      (fun s => (s.signed? (-(Int.pow 2 31)) (Int.pow 2 31 - 1)).map Int32.ofInt) s).map fun n =>
        .ofInt n.toInt),
    ("debug_enabled", readBool d.debugEnabled),
    ("topic_buffer_length", readWord d.topicBufferLength),
    ("payload_buffer_length", readWord d.payloadBufferLength),
    ("queue_size", readWord d.queueSize),
    ("storage_size", readWord d.storageSize),
    ("storage_interval_ms", readWord d.storageIntervalMs),
    ("loop_interval_ms", readLong d.loopIntervalMs),
    ("memory_pages", readWord d.memoryPages),
    ("max_memory_pages", readWord d.maxMemoryPages),
    ("agent_version", readText d.agentVersion),
    ("export_memory", readBoolOrNull d.exportMemory),
    ("disable_debug_message", readBoolOrNull d.disableDebugMessage),
    ("debug_symbols", readBoolOrNull d.debugSymbols),
    ("stack_size", fun s => (orStandard d.stackSize (nullable word?) s).map
      (Json.orNull fun n => .ofInt n.toNat)),
    ("gzip", readBoolOrNull d.gzip),
    ("log_level", readText d.logLevel)]

variable {root root' : Setting} {c c' : AgentConfig}

/-- **A configuration has what its fields make of their settings.** -/
theorem members_eq (h : ofSetting? root = some c) :
    readers.map (fun r => (r.1, r.2 (root.entries.lookup r.1))) = c.members.map fun m => (m.1, some m.2) := by
  unfold ofSetting? at h
  have read {α : Type} {x : Option α} {f : α → Option AgentConfig} :
      (x >>= f) = some c ↔ ∃ a, x = some a ∧ f a = some c := Option.bind_eq_some_iff
  -- from the outside, since a step on the inside would be made again for each of them
  simp only [↓read, Option.pure_def, Option.some.injEq] at h
  obtain ⟨_, h1, _, h2, _, h3, _, h4, _, h5, _, h6, _, h7, _, h8, _, h9, _, h10, _, h11, _, h12, _, h13,
    _, h14, _, h15, _, h16, _, h17, _, h18, _, h19, _, h20, _, h21, _, h22, _, h23, _, h24, _, h25,
    _, h26, _, h27, _, h28, rfl⟩ := h
  simp only [readers, members, readText, readTextOrNull, readBool, readBoolOrNull, readWord, readLong, List.map_cons,
    List.map_nil, h1, h2, h3, h4, h5, h6, h7, h8, h9, h10, h11, h12, h13, h14, h15, h16, h17, h18, h19, h20, h21,
    h22, h23, h24, h25, h26, h27, h28, Option.map_some]

theorem lookup_map {α β : Type} (f : String → α → β) (es : List (String × α)) (n : String) :
    (es.map fun e => (e.1, f e.1 e.2)).lookup n = (es.lookup n).map (f n) := by
  induction es with
  | nil => rfl
  | cons e es ih =>
    obtain ⟨k, v⟩ := e
    simp only [List.map_cons, List.lookup_cons, ih]
    cases hk : n == k with
    | true => rw [beq_iff_eq.1 hk, Option.map_some]
    | false => rfl

/-- **Each field is read from the setting of its name**, and from no other. -/
theorem field_eq (h : ofSetting? root = some c) (n : String) :
    (c.field n).map some = (readers.lookup n).map fun read => read (root.entries.lookup n) := by
  have hn := congrArg (List.lookup n) (members_eq h)
  rw [lookup_map fun name (read : Option Setting → Option Json) => read (root.entries.lookup name),
    lookup_map fun _ (j : Json) => some j] at hn
  exact hn.symm

/-- Where settings agree, so do the fields. -/
theorem field_congr (h : ofSetting? root = some c) (h' : ofSetting? root' = some c') {n : String}
    (hn : root.entries.lookup n = root'.entries.lookup n) : c.field n = c'.field n := by
  have heq : (c.field n).map some = (c'.field n).map some := by rw [field_eq h, field_eq h', hn]
  exact Option.map_injective (fun _ _ => Option.some.inj) heq

/-! ### Texts -/

/-- The settings that take a text. -/
def textSettings : List String :=
  ["device_id", "access_key", "access_secret", "broker_host", "base_topic", "agent_version", "log_level",
    "artifact_path", "storage_path"]

/-- Fields that take a text are read as texts. -/
theorem readers_text {n : String} (hn : n ∈ textSettings) :
    (∃ d, readers.lookup n = some (readText d)) ∨ ∃ d, readers.lookup n = some (readTextOrNull d) := by
  simp only [textSettings, List.mem_cons, List.not_mem_nil, or_false] at hn
  rcases hn with rfl | rfl | rfl | rfl | rfl | rfl | rfl | rfl | rfl <;>
    first | exact .inl ⟨_, rfl⟩ | exact .inr ⟨_, rfl⟩

/-- **A field that takes a text has the one that its setting gives**; a table or a list gives none. -/
theorem field_text (h : ofSetting? root = some c) {n : String} (hn : n ∈ textSettings) {s : Setting}
    (hs : root.entries.lookup n = some s) (hnull : s ≠ .null) :
    ∃ t, s.text? = some t ∧ c.field n = some (.ofText t) := by
  have hfield := field_eq h n
  rw [hs] at hfield
  have hnullable : nullable Setting.text? s = s.text?.map some := by
    cases s <;> first | rfl | exact absurd rfl hnull
  obtain ⟨d, hd⟩ | ⟨d, hd⟩ := readers_text hn
  · rw [hd] at hfield
    cases ht : s.text? with
    | none => cases hf : c.field n <;> simp [hf, readText, orStandard, ht] at hfield
    | some t => cases hf : c.field n <;> simp_all [readText, orStandard]
  · rw [hd] at hfield
    cases ht : s.text? with
    | none => cases hf : c.field n <;> simp [hf, readTextOrNull, orStandard, hnullable, ht] at hfield
    | some t => cases hf : c.field n <;> simp_all [readTextOrNull, orStandard, Json.orNull]

/-! ### Layers -/

/-- The settings that are given apart from the environment. -/
def given (order : Setting.Order) (env : Environment) : Option Source → Except ConfigFault Setting
  | some s => s.settings order env
  | none => .ok (.table [])

/-- **The configuration of a file on its own**, valid or not, or the standard one: the environment only replaces
references. -/
def loadAlone (order : Setting.Order) (env : Environment) (source : Option Source) :
    Except ConfigFault (Option AgentConfig) :=
  (given order env source).map ofSetting?

variable {order order' : Setting.Order} {env : Environment} {source : Option Source} {c₀ : AgentConfig}

theorem loadIn_eq (order order' : Setting.Order) (env : Environment) (source : Option Source) :
    loadIn order order' env source = (given order env source).bind fun root =>
      ofValid (root.overlay (order'.arrange (Setting.latest env.settings))) := by
  cases source <;> rfl

/-- A valid configuration has the fields that its settings give. -/
theorem ofSetting_of_ofValid (h : ofValid root = .ok c) : ofSetting? root = some c := by
  unfold ofValid at h
  split at h
  · cases h
  · rename_i c₁ hc
    cases hv : c₁.validate with
    | error e => rw [hv] at h; cases h
    | ok _ =>
      rw [hv] at h
      rw [hc, Except.ok.inj h]

/-- What was loaded was read from settings and the variables over them, and on its own from the settings alone. -/
theorem settings_of_load (h₀ : loadAlone order env source = .ok (some c₀))
    (h : loadIn order order' env source = .ok c) : ∃ root, ofSetting? root = some c₀ ∧
      ofSetting? (root.overlay (order'.arrange (Setting.latest env.settings))) = some c := by
  rw [loadIn_eq] at h
  unfold loadAlone at h₀
  cases hroot : given order env source with
  | error e => rw [hroot] at h; cases h
  | ok root =>
    rw [hroot] at h h₀
    exact ⟨root, Except.ok.inj h₀, ofSetting_of_ofValid h⟩

/-- Each setting that takes a text is a name of its own, and takes one text. -/
theorem textSettings_plain {n : String} (hn : n ∈ textSettings) :
    Setting.keyHead n = n ∧ n ≠ Environment.listSetting := by
  simp only [textSettings, List.mem_cons, List.not_mem_nil, or_false] at hn
  rcases hn with rfl | rfl | rfl | rfl | rfl | rfl | rfl | rfl | rfl <;>
    exact ⟨by decide, by decide⟩

/-- **What the environment makes of a configuration**, whatever the orders in which its settings are put. A field that
takes a text and that a variable names has the text which the last such variable gives, so exactly the variable's own
unless that would be written differently; and a field that no variable leads to is the one of the file on its own. -/
theorem load_layers (h₀ : loadAlone order env source = .ok (some c₀))
    (h : loadIn order order' env source = .ok c) :
    (∀ n ∈ textSettings, ∀ s, (env.values n).getLast? = some s →
      c.field n = some (.ofText (Environment.written s)) ∧
        (c.field n = some (.ofText s) ↔ Environment.written s = s)) ∧
      ∀ n, env.Spares n → c.field n = c₀.field n := by
  obtain ⟨root, hroot, hover⟩ := settings_of_load h₀ h
  refine ⟨fun n hn s hs => ?_, fun n hspared => ?_⟩
  · obtain ⟨hhead, hone⟩ := textSettings_plain hn
    obtain ⟨v, hv, hcase⟩ := Environment.overlay_values order' hhead hs root
    have hnull : v ≠ .null := by
      rintro rfl
      obtain hnull | hcompound := hcase
      · have htext := Environment.text_valueOf hone s
        rw [← hnull] at htext
        cases htext
      · exact hcompound
    obtain ⟨t, ht, hfield⟩ := field_text hover hn hv hnull
    have hwritten : t = Environment.written s := by
      obtain rfl | hcompound := hcase
      · exact Option.some.inj (ht.symm.trans (Environment.text_valueOf hone s))
      · -- a table or a list gives no text, and then nothing is loaded
        cases v <;> first | exact hcompound.elim | cases ht
    rw [hfield, hwritten]
    refine ⟨rfl, fun heq => ?_, fun heq => by rw [heq]⟩
    exact Option.some.inj (Json.text.inj (Option.some.inj heq))
  · exact field_congr hover hroot (Environment.overlay_spared order' hspared)

/-- A file of the simplest format. -/
def Sample.file (text : String) : Source := ⟨⟨[.down "agent.ini"], false⟩, some (Utf8.encode text)⟩

theorem Sample.given_file {text : String} {entries : List (String × Setting)}
    (h : Format.ini.entries (env.expand text) = .ok entries) :
    given order env (some (file text)) = .ok (Setting.overlay (.table []) (order.arrange (Setting.latest entries))) := by
  have htext : Utf8.decode (Utf8.encode text) = .ok text := Utf8.decode_eq_ok_iff.2 rfl
  have hsettings : settings order env .ini text =
      .ok (Setting.overlay (.table []) (order.arrange (Setting.latest entries))) := by
    rw [settings, h]
    rfl
  have hformat : Format.ofPath (file text).path = .ok .ini := rfl
  rw [given, Source.settings, hformat]
  simp only [file, Option.map_some, htext]
  exact hsettings

/-- An environment that names a broker. -/
def Sample.desk : Environment := [("HOME", "/root"), ("EEA_BROKER_HOST", "localhost")]

theorem load_layers_desk :
    let source := some (Sample.file "device_id=abc")
    let c₀ := { standard with deviceId := "abc" }
    let c := { c₀ with brokerHost := "localhost" }
    loadAlone .written Sample.desk source = .ok (some c₀) ∧ load Sample.desk source = .ok c ∧
      c.field "broker_host" = some (.ofText "localhost") ∧ c.field "device_id" = c₀.field "device_id" := by
  intro source c₀ c
  have hexpand : Sample.desk.expand "device_id=abc" = "device_id=abc" := by decide +kernel
  have hentries : Format.ini.entries (Sample.desk.expand "device_id=abc") = .ok [("device_id", .text "abc")] := by
    rw [hexpand]
    rfl
  have h₀ : loadAlone .written Sample.desk source = .ok (some c₀) := by
    rw [loadAlone, Sample.given_file hentries]
    rfl
  have h : load Sample.desk source = .ok c := by
    rw [load, loadIn_eq, Sample.given_file hentries]
    rfl
  obtain ⟨htexts, hothers⟩ := load_layers h₀ h
  have hnamed := htexts "broker_host" (by decide) "localhost" rfl
  exact ⟨h₀, h, hnamed.2.2 (by decide), hothers "device_id" (by decide)⟩

/-- An environment with an identifier that looks like a number. -/
def Sample.numbered : Environment := [("EEA_DEVICE_ID", "007")]

/-- **An identifier that looks like a number is written differently**, even where a file refers to it: on its own the
file takes the variable's text as it is. -/
theorem numeral_rewritten :
    let source := some (Sample.file "device_id=$\x7bEEA_DEVICE_ID\x7d")
    Environment.values Sample.numbered "device_id" = ["007"] ∧
      loadAlone .written Sample.numbered source = .ok (some { standard with deviceId := "007" }) ∧
      load Sample.numbered source = .ok { standard with deviceId := "7" } := by
  intro source
  have hexpand : Sample.numbered.expand "device_id=$\x7bEEA_DEVICE_ID\x7d" = "device_id=007" := by decide +kernel
  have hentries : Format.ini.entries (Sample.numbered.expand "device_id=$\x7bEEA_DEVICE_ID\x7d") =
      .ok [("device_id", .text "007")] := by
    rw [hexpand]
    rfl
  refine ⟨rfl, ?_, ?_⟩
  · rw [loadAlone, Sample.given_file hentries]
    rfl
  · rw [load, loadIn_eq, Sample.given_file hentries]
    rfl

end AgentConfig

end FlowHost

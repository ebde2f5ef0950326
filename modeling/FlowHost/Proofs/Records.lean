import FlowHost.Config
import FlowHost.Json.Values
import FlowHost.Proofs.Compact

/-!
# Records in documents

A record is written as an object with its fields, and read from the object field by field. An option that is absent is
left out in the hello message and null in a configuration, and read as absent from either.

* `Json.slots?_ofMembers`: **each field has the value of its member.**
* `Json.int?_ofInt`: an integer within bounds is read as itself.
* `written_read_back`: **what is written is read back as what it was.**
-/

namespace FlowHost

namespace Json

/-! ### Fields -/

theorem collect_named {names : List String} {ms found : List (String × Json)} (hnames : ∀ m ∈ ms, m.1 ∈ names)
    (hnodup : ((found ++ ms).map Prod.fst).Nodup) : collect names (named ms) found = some (found ++ ms) := by
  induction ms generalizing found with
  | nil => rw [List.append_nil]; rfl
  | cons m ms ih =>
    obtain ⟨hm, hms⟩ := List.forall_mem_cons.1 hnames
    have hnew : ¬ (found.map Prod.fst).contains m.1 = true := by
      rw [List.contains_iff_mem]
      intro hfound
      rw [List.map_append, List.nodup_append] at hnodup
      exact hnodup.2.2 _ hfound _ (by simp) rfl
    have hmoved : found ++ m :: ms = (found ++ [m]) ++ ms := by simp
    show collect names ((some m.1, m.2) :: named ms) found = _
    rw [collect, if_pos (List.contains_iff_mem.2 hm), if_neg hnew, hmoved]
    exact ih hms (by rwa [← hmoved])

/-- **Each field has the value of its member.** -/
theorem slots?_ofMembers {names : List String} {ms : List (String × Json)} (hnames : ∀ m ∈ ms, m.1 ∈ names)
    (hnodup : (ms.map Prod.fst).Nodup) :
    (ofMembers ms).slots? names = some (names.map fun name => ms.lookup name) := by
  have hcollect : collect names (named ms) [] = some ms := collect_named hnames hnodup
  show (collect names (named ms) []).map _ = _
  rw [hcollect, Option.map_some]

/-! ### Values -/

/-- **An integer within bounds is read as itself.** -/
theorem int?_ofInt {low high i : Int} (hlow : low ≤ i) (hhigh : i ≤ high) (hleast : -(Int.pow 2 63) ≤ low)
    (hmost : high ≤ Int.pow 2 64 - 1) : (ofInt i).int? low high = some i := by
  have hnumber := Numeral.toNumber?_ofInt (Int.le_trans hleast hlow) (Int.le_trans hhigh hmost)
  rw [ofInt, int?, hnumber]
  by_cases hneg : i < 0
  · simp [hneg, hlow, hhigh]
  · have hvalue : (i.toNat : Int) = i := by omega
    simp [hneg, hvalue, hlow, hhigh]

/-- An integer of 32 bits with a sign is read as itself. -/
theorem int?_int32 (n : Int32) : (ofInt n.toInt).int? (-(Int.pow 2 31)) (Int.pow 2 31 - 1) = some n.toInt := by
  have hpow : Int.pow 2 31 = 2147483648 := rfl
  have hpow' : Int.pow 2 63 = 9223372036854775808 := rfl
  have hpow'' : Int.pow 2 64 = 18446744073709551616 := rfl
  have hlow := n.le_toInt
  have hhigh := n.toInt_lt
  exact int?_ofInt (by omega) (by omega) (by omega) (by omega)

/-- An integer without a sign is read as itself, in as many bits as it needs. -/
theorem int?_natCast {n bits : Nat} (hbits : bits ≤ 64) (hn : n < Nat.pow 2 bits) :
    (ofInt n).int? 0 (Int.pow 2 bits - 1) = some (n : Int) := by
  have hmost : Nat.pow 2 bits ≤ Nat.pow 2 64 := Nat.pow_le_pow_right (by decide) hbits
  have hpow : Int.pow 2 bits = (Nat.pow 2 bits : Int) := (Int.natCast_pow 2 bits).symm
  have hpow' : Int.pow 2 63 = 9223372036854775808 := rfl
  have hpow'' : Int.pow 2 64 = (Nat.pow 2 64 : Int) := rfl
  exact int?_ofInt (by omega) (by omega) (by omega) (by omega)

/-- An option that is given or left out. -/
theorem optional_map {α β : Type} {read : Json → Option β} {write : α → Json} {value : α → β} (o : Option α)
    (hnull : ∀ a, write a ≠ null) (hread : ∀ a, read (write a) = some (value a)) :
    optional read (o.map write) = some (o.map value) := by
  cases o with
  | none => rfl
  | some a =>
    have hsome : optional read (some (write a)) = (read (write a)).map some := by
      cases hw : write a <;> first | rfl | exact absurd hw (hnull a)
    rw [Option.map_some, hsome, hread]
    rfl

theorem lookup_present {α : Type} (name n : String) (write : α → Json) (o : Option α) :
    (present name write o).lookup n = if n = name then o.map write else none := by
  cases o with
  | none => simp [present]
  | some a =>
    by_cases hn : n = name
    · simp [present, hn]
    · simp [present, List.lookup_cons, hn, beq_eq_false_iff_ne.2 hn]

theorem names_present {α : Type} (name : String) (write : α → Json) (o : Option α) :
    ((present name write o).map Prod.fst).Sublist [name] := by
  cases o with
  | none => exact List.nil_sublist _
  | some a => exact List.Sublist.refl _

theorem readsBack_present {α : Type} {name : String} {write : α → Json} {o : Option α}
    (h : ∀ a, ReadsBack (write a)) : ∀ m ∈ present name write o, ReadsBack m.2 := by
  cases o with
  | none => simp [present]
  | some a => simp [present, h]

end Json

open Json

/-! ### Messages -/

theorem QoS.ofJson?_toJson (q : QoS) : QoS.ofJson? q.toJson = some q := by cases q <;> rfl

theorem Message.ofJson?_toJson (m : Message) : Message.ofJson? m.toJson = some m := by
  have hslots : m.toJson.slots? ["topic", "payload", "qos"] =
      some [some (.ofText m.topic), some (.ofText m.payload), some m.qos.toJson] :=
    slots?_ofMembers (by simp) (show ["topic", "payload", "qos"].Nodup by decide)
  unfold Message.ofJson?
  rw [hslots]
  simp [required, text?, Json.ofText, QoS.ofJson?_toJson]

/-! ### Options -/

namespace CompilerOptions

/-- The options that are given, under their names. -/
def given (o : CompilerOptions) : List (String × Json) :=
  ("traceLevel", ofInt o.traceLevel.toInt) ::
    (present "exportMemory" .bool o.exportMemory ++ present "disableDebugMessage" .bool o.disableDebugMessage ++
      present "debugSymbols" .bool o.debugSymbols ++ present "stackSize" (fun n => .ofInt n.toNat) o.stackSize ++
      present "gzip" .bool o.gzip)

theorem toJson_eq (o : CompilerOptions) : o.toJson = .ofMembers o.given := rfl

/-- No option is given twice, and none that there is not. -/
theorem names_given (o : CompilerOptions) : (o.given.map Prod.fst).Sublist fields := by
  unfold given
  simp only [List.map_cons, List.map_append]
  exact .cons_cons _ (((((names_present _ _ _).append (names_present _ _ _)).append (names_present _ _ _)).append
    (names_present _ _ _)).append (names_present _ _ _))

theorem lookup_given (o : CompilerOptions) : (fields.map fun name => o.given.lookup name) =
    [some (ofInt o.traceLevel.toInt), o.exportMemory.map .bool, o.disableDebugMessage.map .bool,
      o.debugSymbols.map .bool, o.stackSize.map (fun n => .ofInt n.toNat), o.gzip.map .bool] := by
  simp [fields, given, List.lookup_cons, List.lookup_append, lookup_present]

theorem readsBack_given (o : CompilerOptions) : ∀ m ∈ o.given, ReadsBack m.2 := by
  unfold given
  simp only [List.forall_mem_cons, List.forall_mem_append]
  exact ⟨readsBack_ofInt _, ⟨⟨⟨readsBack_present readsBack_bool, readsBack_present readsBack_bool⟩,
    readsBack_present readsBack_bool⟩, readsBack_present fun _ => readsBack_ofInt _⟩, readsBack_present readsBack_bool⟩

theorem slots?_toJson (o : CompilerOptions) : o.toJson.slots? fields =
    some [some (ofInt o.traceLevel.toInt), o.exportMemory.map .bool, o.disableDebugMessage.map .bool,
      o.debugSymbols.map .bool, o.stackSize.map (fun n => .ofInt n.toNat), o.gzip.map .bool] := by
  rw [toJson_eq, ← lookup_given]
  exact slots?_ofMembers (fun m hm => (names_given o).subset (List.mem_map_of_mem hm))
    ((names_given o).nodup (by decide))

theorem ofJson?_toJson (o : CompilerOptions) : ofJson? o.toJson = some o := by
  have hbool (b : Option Bool) : optional bool? (b.map .bool) = some b := by
    have hread : optional bool? (b.map .bool) = some (b.map id) := optional_map b (by simp) fun _ => rfl
    rwa [Option.map_id] at hread
  have hstack : optional (int? 0 (Int.pow 2 32 - 1)) (o.stackSize.map fun n => .ofInt n.toNat) =
      some (o.stackSize.map fun n => (n.toNat : Int)) :=
    optional_map o.stackSize (by simp [Json.ofInt]) fun n => int?_natCast (by decide) n.toNat_lt
  have hword : (o.stackSize.map fun n => (n.toNat : Int)).map UInt32.ofInt = o.stackSize := by
    have hid : (UInt32.ofInt ∘ fun n : UInt32 => (n.toNat : Int)) = id := by
      funext n
      have hlt := n.toNat_lt
      have hmod : ((n.toNat : Int) % 2 ^ 32).toNat = n.toNat := by omega
      show UInt32.ofNat ((n.toNat : Int) % 2 ^ 32).toNat = n
      rw [hmod, UInt32.ofNat_toNat]
    rw [Option.map_map, hid, Option.map_id, id]
  unfold ofJson?
  rw [slots?_toJson]
  simp only [Option.bind_eq_bind, Option.bind_some, required, int?_int32, hbool, hstack, hword, Int32.ofInt_toInt]
  rfl

end CompilerOptions

/-! ### The hello message -/

theorem Hello.ofJson?_toJson (h : Hello) : Hello.ofJson? h.toJson = some h := by
  have hslots : h.toJson.slots? ["service", "version", "bundle", "compilerOptions"] =
      some [some (.ofText h.service), some (.ofText h.version), some (.ofText h.bundle),
        some h.compilerOptions.toJson] :=
    slots?_ofMembers (by simp) (show ["service", "version", "bundle", "compilerOptions"].Nodup by decide)
  unfold Hello.ofJson?
  rw [hslots]
  simp [required, text?, Json.ofText, CompilerOptions.ofJson?_toJson]

/-! ### Configurations -/

namespace AgentConfig

theorem lookup_zip_map {β : Type} (names : List String) (f : String → β) {n : String} (hn : n ∈ names) :
    (names.zip (names.map f)).lookup n = some (f n) := by
  induction names with
  | nil => cases hn
  | cons name names ih =>
    rw [List.map_cons, List.zip_cons_cons, List.lookup_cons]
    by_cases hname : n = name
    · simp [hname]
    · rw [beq_eq_false_iff_ne.2 hname]
      exact ih ((List.mem_cons.1 hn).resolve_left hname)

/-- A field that is found is read. -/
theorem withDefault_found {c : AgentConfig} {α : Type} {d a : α} {read : Json → Option α} {name : String} {j : Json}
    (hname : name ∈ fields) (hj : c.members.lookup name = some j) (hread : read j = some a) :
    withDefault d read ((fields.zip (fields.map fun name => c.members.lookup name)).lookup name).join = some a := by
  rw [lookup_zip_map fields _ hname, hj]
  exact hread

theorem nullableJson_orNull {α : Type} {read : Json → Option α} {write : α → Json} (o : Option α)
    (hnull : ∀ a, write a ≠ null) (hread : ∀ a, read (write a) = some a) :
    nullableJson read (orNull write o) = some o := by
  cases o with
  | none => rfl
  | some a =>
    have hsome : nullableJson read (write a) = (read (write a)).map some := by
      cases hw : write a <;> first | rfl | exact absurd hw (hnull a)
    rw [orNull, hsome, hread, Option.map_some]

theorem unsignedJson?_ofInt {n bits : Nat} (hbits : bits ≤ 64) (hn : n < Nat.pow 2 bits) :
    unsignedJson? bits (.ofInt n) = some n := by
  rw [unsignedJson?, int?_natCast hbits hn, Option.map_some, Int.toNat_natCast]

theorem texts?_ofTexts (ts : List String) : texts? (.array (ts.map .ofText)) = some ts := by
  rw [texts?]
  induction ts with
  | nil => rfl
  | cons t ts ih => simp [text?, Json.ofText, ih]

theorem ofJson?_toJson (c : AgentConfig) : ofJson? c.toJson = some c := by
  have hfields : fields = c.members.map Prod.fst := rfl
  have hslots : c.toJson.slots? fields = some (fields.map fun name => c.members.lookup name) :=
    slots?_ofMembers (fun m hm => hfields ▸ List.mem_map_of_mem hm) (hfields ▸ (by decide : fields.Nodup))
  have text (o : Option String) : nullableJson text? (orNull .ofText o) = some o :=
    nullableJson_orNull o (by simp [Json.ofText]) fun _ => rfl
  have bool (o : Option Bool) : nullableJson bool? (orNull .bool o) = some o :=
    nullableJson_orNull o (by simp) fun _ => rfl
  have short (n : UInt16) : (unsignedJson? 16 (.ofInt n.toNat)).map UInt16.ofNat = some n := by
    rw [unsignedJson?_ofInt (by decide) n.toNat_lt, Option.map_some, UInt16.ofNat_toNat]
  have word (n : UInt32) : (unsignedJson? 32 (.ofInt n.toNat)).map UInt32.ofNat = some n := by
    rw [unsignedJson?_ofInt (by decide) n.toNat_lt, Option.map_some, UInt32.ofNat_toNat]
  have long (n : UInt64) : (unsignedJson? 64 (.ofInt n.toNat)).map UInt64.ofNat = some n := by
    rw [unsignedJson?_ofInt (by decide) n.toNat_lt, Option.map_some, UInt64.ofNat_toNat]
  have level : ((Json.ofInt c.traceLevel.toInt).int? (-(Int.pow 2 31)) (Int.pow 2 31 - 1)).map Int32.ofInt =
      some c.traceLevel := by
    rw [int?_int32, Option.map_some, Int32.ofInt_toInt]
  have wordOrNull (o : Option UInt32) :
      nullableJson (fun j => (unsignedJson? 32 j).map UInt32.ofNat) (orNull (fun n => .ofInt n.toNat) o) = some o :=
    nullableJson_orNull o (by simp [ofInt]) word
  -- one field after another, in the order of the record
  have step {α : Type} {x : Option α} {a : α} {f : α → Option AgentConfig} (hx : x = some a) (hf : f a = some c) :
      (x >>= f) = some c := Option.bind_eq_some_iff.2 ⟨a, hx, hf⟩
  unfold ofJson?
  refine step hslots ?_
  refine step (withDefault_found (by decide) rfl rfl) ?_
  refine step (withDefault_found (by decide) rfl (text _)) ?_
  refine step (withDefault_found (by decide) rfl (text _)) ?_
  refine step (withDefault_found (by decide) rfl rfl) ?_
  refine step (withDefault_found (by decide) rfl (short _)) ?_
  refine step (withDefault_found (by decide) rfl rfl) ?_
  refine step (withDefault_found (by decide) rfl (long _)) ?_
  refine step (withDefault_found (by decide) rfl rfl) ?_
  refine step (withDefault_found (by decide) rfl (texts?_ofTexts _)) ?_
  refine step (withDefault_found (by decide) rfl (text _)) ?_
  refine step (withDefault_found (by decide) rfl (text _)) ?_
  refine step (withDefault_found (by decide) rfl level) ?_
  refine step (withDefault_found (by decide) rfl rfl) ?_
  refine step (withDefault_found (by decide) rfl (word _)) ?_
  refine step (withDefault_found (by decide) rfl (word _)) ?_
  refine step (withDefault_found (by decide) rfl (word _)) ?_
  refine step (withDefault_found (by decide) rfl (word _)) ?_
  refine step (withDefault_found (by decide) rfl (word _)) ?_
  refine step (withDefault_found (by decide) rfl (long _)) ?_
  refine step (withDefault_found (by decide) rfl (word _)) ?_
  refine step (withDefault_found (by decide) rfl (word _)) ?_
  refine step (withDefault_found (by decide) rfl rfl) ?_
  refine step (withDefault_found (by decide) rfl (bool _)) ?_
  refine step (withDefault_found (by decide) rfl (bool _)) ?_
  refine step (withDefault_found (by decide) rfl (bool _)) ?_
  refine step (withDefault_found (by decide) rfl (wordOrNull _)) ?_
  refine step (withDefault_found (by decide) rfl (bool _)) ?_
  refine step (withDefault_found (by decide) rfl rfl) ?_
  rfl

theorem readsBack_toJson (c : AgentConfig) : ReadsBack c.toJson := by
  have text (o : Option String) : ReadsBack (orNull .ofText o) := by
    cases o with
    | none => exact readsBack_null
    | some t => exact readsBack_ofText t
  have bool (o : Option Bool) : ReadsBack (orNull .bool o) := by
    cases o with
    | none => exact readsBack_null
    | some b => exact readsBack_bool b
  have word (o : Option UInt32) : ReadsBack (orNull (fun n => .ofInt n.toNat) o) := by
    cases o with
    | none => exact readsBack_null
    | some n => exact readsBack_ofInt _
  have texts (ts : List String) : ReadsBack (.array (ts.map .ofText)) :=
    readsBack_array (by simpa using fun t _ => readsBack_ofText t)
  refine readsBack_ofMembers ?_
  simp [members, readsBack_ofText, readsBack_bool, readsBack_ofInt, text, bool, word, texts]

end AgentConfig

/-! ### Round trips -/

theorem Message.readsBack_toJson (m : Message) : ReadsBack m.toJson := by
  refine readsBack_ofMembers ?_
  have hqos : ReadsBack m.qos.toJson := readsBack_ofText m.qos.name
  simp [readsBack_ofText, hqos]

theorem CompilerOptions.readsBack_toJson (o : CompilerOptions) : ReadsBack o.toJson :=
  readsBack_ofMembers o.readsBack_given

theorem Hello.readsBack_toJson (h : Hello) : ReadsBack h.toJson := by
  refine readsBack_ofMembers ?_
  simp [readsBack_ofText, h.compilerOptions.readsBack_toJson]

/-- **What is written is read back as what it was**: a message, options, an announcement and a configuration, whatever
texts and numbers they hold. The payload that announces a bundle is read as the announcement of its version, its
identifier and its options, and the options that stand in it are those that are given: each of them once, under its name
and with its value, and no other. -/
theorem written_read_back :
    (∀ m : Message, (read? m.toJson.compact).bind Message.ofJson? = some m) ∧
    (∀ o : CompilerOptions, (read? o.toJson.compact).bind CompilerOptions.ofJson? = some o) ∧
    (∀ h : Hello, (read? h.toJson.compact).bind Hello.ofJson? = some h) ∧
    (∀ c : AgentConfig, (read? c.toJson.compact).bind AgentConfig.ofJson? = some c) ∧
    ∀ (version bundle : String) (o : CompilerOptions) (layout : TopicLayout),
      (read? ((Hello.make version bundle o).toMessage layout).payload).bind Hello.ofJson? =
        some (Hello.make version bundle o) ∧
      ∃ options : List (String × Json),
        read? ((Hello.make version bundle o).toMessage layout).payload =
          some (.ofMembers [("service", .ofText helloService), ("version", .ofText version),
            ("bundle", .ofText bundle), ("compilerOptions", .ofMembers options)]) ∧
        (options.map Prod.fst).Sublist CompilerOptions.fields ∧
        (CompilerOptions.fields.map fun name => options.lookup name) =
          [some (ofInt o.traceLevel.toInt), o.exportMemory.map .bool, o.disableDebugMessage.map .bool,
            o.debugSymbols.map .bool, o.stackSize.map (fun n => .ofInt n.toNat), o.gzip.map .bool] := by
  have back {α : Type} {j : Json} {read : Json → Option α} {a : α} (hj : ReadsBack j) (hread : read j = some a) :
      (read? j.compact).bind read = some a := by
    rw [read?_compact hj, Option.bind_some, hread]
  refine ⟨fun m => back m.readsBack_toJson m.ofJson?_toJson, fun o => back o.readsBack_toJson o.ofJson?_toJson,
    fun h => back h.readsBack_toJson h.ofJson?_toJson, fun c => back c.readsBack_toJson c.ofJson?_toJson,
    fun version bundle o layout => ?_⟩
  set h := Hello.make version bundle o
  exact ⟨back h.readsBack_toJson h.ofJson?_toJson, o.given, read?_compact h.readsBack_toJson, o.names_given,
    o.lookup_given⟩

end FlowHost

import FlowHost.Proofs.Compact
import FlowHost.Proofs.Layers
import FlowHost.Proofs.Numerals
import FlowHost.Proofs.Placeholder

/-!
# References in configurations

A configuration document in which one field that takes a text is written as a reference to a variable. The value of the
variable is put into the document before it is read, so it stands in the field as it is, and changes no other field, if
nothing in it has a meaning within quotes; otherwise the document is another one.

* `AgentConfig.settings_plain`: the settings in such a document, for a value that spells itself.
* `AgentConfig.settings_held`: the settings in it for any value.
* `AgentConfig.expanded_alike`: **what the value of the variable makes of the configuration.**
* `AgentConfig.secret_escapes`: a value that sets another field.
-/

namespace FlowHost

open Json

/-! ### Names -/

namespace Setting

/-- A key without the marks of a path is a name as a whole. -/
theorem keySteps_name {key : String} (h : ∀ c ∈ (lower key).toList, c ≠ '.' ∧ c ≠ '[') :
    keySteps key = [.entry (lower key)] := by
  unfold keySteps
  simp only
  split
  · rfl
  · cases hrest : (lower key).toList.drop ((lower key).toList.takeWhile isNameChar).length with
    | nil =>
      rw [takeWhile_of_drop hrest, String.ofList_toList]
      rfl
    | cons c rest =>
      obtain ⟨hpoint, hbracket⟩ := h c (List.mem_of_mem_drop (hrest ▸ List.mem_cons_self))
      have hnone : furtherSteps ((lower key).toList.length + 1) (c :: rest) = none := by
        unfold furtherSteps
        split
        · rfl
        · rename_i heq
          cases heq
        · rename_i heq
          exact absurd (List.cons.inj heq).1 hpoint
        · rename_i heq
          exact absurd (List.cons.inj heq).1 hbracket
        · rfl
      rw [hnone]

/-- The names of settings that take a text are no paths, in letters of either case. -/
theorem keySteps_text {key : String} (h : lower key ∈ AgentConfig.textSettings) :
    keySteps key = [.entry (lower key)] := by
  have hnames : ∀ n ∈ AgentConfig.textSettings, '.' ∉ n.toList ∧ '[' ∉ n.toList := by decide
  obtain ⟨hpoint, hbracket⟩ := hnames _ h
  refine keySteps_name fun c hc => ⟨?_, ?_⟩
  · rintro rfl
    exact hpoint hc
  · rintro rfl
    exact hbracket hc

/-! ### Documents as settings -/

variable {ms ms' : List (Option String × Json)} {es : List (String × Setting)}

theorem ofMembers_cons {m : Option String × Json} : ofMembers? (m :: ms) = some es ↔
    ∃ k v es', m.1 = some k ∧ ofJson? m.2 = some v ∧ ofMembers? ms = some es' ∧ es = (k, v) :: es' := by
  rw [ofMembers?]
  simp only [Option.bind_eq_bind, Option.pure_def, Option.bind_eq_some_iff, Option.some.injEq, eq_comm (b := es)]
  refine ⟨?_, ?_⟩
  · rintro ⟨k, hk, v, hv, es', hes, rfl⟩
    exact ⟨k, v, es', hk, hv, hes, rfl⟩
  · rintro ⟨k, v, es', hk, hv, hes, rfl⟩
    exact ⟨k, hk, v, hv, es', hes, rfl⟩

theorem ofMembers_append : ofMembers? (ms ++ ms') = some es ↔
    ∃ es₁ es₂, ofMembers? ms = some es₁ ∧ ofMembers? ms' = some es₂ ∧ es = es₁ ++ es₂ := by
  induction ms generalizing es with
  | nil =>
    refine ⟨fun h => ⟨[], es, rfl, h, rfl⟩, ?_⟩
    rintro ⟨es₁, es₂, h₁, h₂, rfl⟩
    rw [ofMembers?, Option.some.injEq] at h₁
    rw [← h₁]
    exact h₂
  | cons m ms ih =>
    rw [List.cons_append, ofMembers_cons]
    refine ⟨?_, ?_⟩
    · rintro ⟨k, v, es', hk, hv, hes, rfl⟩
      obtain ⟨es₁, es₂, h₁, h₂, rfl⟩ := ih.1 hes
      exact ⟨(k, v) :: es₁, es₂, ofMembers_cons.2 ⟨k, v, es₁, hk, hv, h₁, rfl⟩, h₂, rfl⟩
    · rintro ⟨es₁, es₂, h₁, h₂, rfl⟩
      obtain ⟨k, v, es', hk, hv, hes, rfl⟩ := ofMembers_cons.1 h₁
      exact ⟨k, v, es' ++ es₂, hk, hv, ih.2 ⟨es', es₂, hes, h₂, rfl⟩, rfl⟩

/-- Entries have the names of the members. -/
theorem names_ofMembers (h : ofMembers? ms = some es) : ms.map Prod.fst = es.map fun e => some e.1 := by
  induction ms generalizing es with
  | nil =>
    rw [ofMembers?, Option.some.injEq] at h
    rw [← h]
    rfl
  | cons m ms ih =>
    obtain ⟨k, v, es', hk, -, hes, rfl⟩ := ofMembers_cons.1 h
    rw [List.map_cons, List.map_cons, hk, ih hes]

/-- An entry is a member's. -/
theorem mem_ofMembers (h : ofMembers? ms = some es) {e : String × Setting} (he : e ∈ es) :
    ∃ m ∈ ms, ofJson? m.2 = some e.2 := by
  induction ms generalizing es with
  | nil =>
    rw [ofMembers?, Option.some.injEq] at h
    subst h
    cases he
  | cons m ms ih =>
    obtain ⟨k, v, es', hk, hv, hes, rfl⟩ := ofMembers_cons.1 h
    obtain rfl | hmem := List.mem_cons.1 he
    · exact ⟨m, List.mem_cons_self, hv⟩
    · obtain ⟨m', hm', heq⟩ := ih hes hmem
      exact ⟨m', List.mem_cons_of_mem _ hm', heq⟩

/-- Only an object is a table. -/
theorem table_of_json {j : Json} (h : ofJson? j = some (table es)) :
    ∃ ms es', j = .object ms ∧ ofMembers? ms = some es' ∧ es = latest es' := by
  cases j with
  | object ms =>
    rw [ofJson?, Option.map_eq_some_iff] at h
    obtain ⟨es', hes, heq⟩ := h
    exact ⟨ms, es', rfl, hes, (table.inj heq).symm⟩
  | null => cases h
  | bool b => cases h
  | number n =>
    rw [ofJson?] at h
    split at h <;> cases h
  | text t => cases t <;> cases h
  | array items =>
    rw [ofJson?, Option.map_eq_some_iff] at h
    obtain ⟨items', -, heq⟩ := h
    cases heq

/-! ### Texts without quotes -/

theorem quote_not_mem_digits {n : Nat} : '"' ∉ Nat.toDigits 10 n := by
  intro h
  have hdigit := isDigit_of_mem_toDigits h
  cases hdigit

theorem quote_not_mem_toString (i : Int) : '"' ∉ (toString i).toList := by
  cases i with
  | ofNat n =>
    have heq : (toString (Int.ofNat n)).toList = Nat.toDigits 10 n := by simp [toString, Int.repr, Nat.repr]
    rw [heq]
    exact quote_not_mem_digits
  | negSucc n =>
    have heq : (toString (Int.negSucc n)).toList = '-' :: Nat.toDigits 10 (n + 1) := by
      simp [toString, Int.repr, Nat.repr]
    rw [heq]
    exact List.not_mem_cons_of_ne_of_not_mem (by decide) quote_not_mem_digits

/-- No number is written with a quote. -/
theorem quote_not_mem_plain (x : Double) : '"' ∉ x.plain.toList := by
  unfold Double.plain
  split
  · decide
  · split
    · split <;> decide
    · unfold Decimal.positional
      generalize FloatFormat.double.shortest x.bits.toNat = d
      have hdigits : '"' ∉ d.digits := quote_not_mem_digits
      have hsign : '"' ∉ (if d.negative then "-" else "").toList := by
        split <;> decide
      simp only [String.toList_append, String.toList_ofList, List.mem_append, not_or]
      refine ⟨hsign, ?_⟩
      split
      · simp [hdigits]
      · split
        · simp only [List.mem_append, List.mem_cons, not_or]
          exact ⟨fun h => hdigits (List.mem_of_mem_take h), by decide, fun h => hdigits (List.mem_of_mem_drop h)⟩
        · simp [hdigits]

/-- **A text that has a quote** is of a member that is a text. -/
theorem eq_text_of_quote {j : Json} {s : Setting} {t : String} (hs : ofJson? j = some s) (ht : s.text? = some t)
    (hquote : '"' ∈ t.toList) : j = .text (some t) := by
  cases j with
  | null =>
    rw [ofJson?, Option.some.injEq] at hs
    subst hs
    cases ht
  | bool b =>
    rw [ofJson?, Option.some.injEq] at hs
    subst hs
    obtain rfl := Option.some.inj ht
    cases b <;> exact absurd hquote (by decide)
  | number n =>
    rw [ofJson?] at hs
    split at hs
    · obtain rfl := Option.some.inj hs
      obtain rfl := Option.some.inj ht
      exact absurd hquote (quote_not_mem_toString _)
    · obtain rfl := Option.some.inj hs
      obtain rfl := Option.some.inj ht
      exact absurd hquote (quote_not_mem_toString _)
    · obtain rfl := Option.some.inj hs
      obtain rfl := Option.some.inj ht
      exact absurd hquote (quote_not_mem_plain _)
    · cases hs
  | text t' =>
    rw [ofJson?, Option.map_eq_some_iff] at hs
    obtain ⟨t', rfl, rfl⟩ := hs
    obtain rfl := Option.some.inj ht
    rfl
  | array items =>
    rw [ofJson?, Option.map_eq_some_iff] at hs
    obtain ⟨items', -, rfl⟩ := hs
    cases ht
  | object members =>
    rw [ofJson?, Option.map_eq_some_iff] at hs
    obtain ⟨members', -, rfl⟩ := hs
    cases ht

end Setting

namespace Placeholder

/-- The settings that the members lead to. -/
def heads (d : Placeholder) : List (Option String) :=
  (d.before ++ (some d.key, .null) :: d.after).map fun m => m.1.map Setting.keyHead

/-- **The field is a setting that takes a text**, and no two members lead to one setting. -/
structure Sets (d : Placeholder) (n : String) : Prop where
  names : lower d.key = n
  takes : n ∈ AgentConfig.textSettings
  apart : d.heads.Nodup

variable {d : Placeholder} {n : String} {es₁ es₂ : List (String × Setting)}

theorem Sets.keySteps_eq (hset : d.Sets n) : Setting.keySteps d.key = [.entry n] :=
  hset.names ▸ Setting.keySteps_text (hset.names ▸ hset.takes)

theorem Sets.keyHead_eq (hset : d.Sets n) : Setting.keyHead d.key = n := by
  rw [Setting.keyHead, hset.keySteps_eq]
  show lower n = n
  rw [← hset.names, lower_lower]

/-- What the members are as entries leads to different settings. -/
theorem Sets.heads_nodup (hset : d.Sets n) (h₁ : Setting.ofMembers? d.before = some es₁)
    (h₂ : Setting.ofMembers? d.after = some es₂) (s : Setting) :
    (Setting.heads (es₁ ++ (d.key, s) :: es₂)).Nodup := by
  have hheads : d.heads = (Setting.heads (es₁ ++ (d.key, s) :: es₂)).map some := by
    have hnames := Setting.names_ofMembers h₁
    have hnames' := Setting.names_ofMembers h₂
    have hsplit : d.heads = ((d.before.map Prod.fst) ++ some d.key :: d.after.map Prod.fst).map
        (Option.map Setting.keyHead) := by simp [heads, Function.comp_def]
    rw [hsplit, hnames, hnames']
    simp [Setting.heads, Function.comp_def]
  exact (hheads ▸ hset.apart).of_map some

/-- No other member leads to the setting. -/
theorem Sets.others (hset : d.Sets n) (h₁ : Setting.ofMembers? d.before = some es₁)
    (h₂ : Setting.ofMembers? d.after = some es₂) : ∀ e ∈ es₁ ++ es₂, Setting.keyHead e.1 ≠ n := by
  rintro e he rfl
  have hnodup := hset.heads_nodup h₁ h₂ .null
  rw [Setting.heads, List.map_append, List.map_cons, List.nodup_middle, List.nodup_cons, ← List.map_append,
    hset.keyHead_eq] at hnodup
  exact hnodup.1 (List.mem_map_of_mem he)

end Placeholder

namespace AgentConfig

/-! ### Settings -/

/-- A configuration is read if each of its fields can be. -/
theorem exists_of_read {root : Setting} (h : ∀ r ∈ readers, (r.2 (root.entries.lookup r.1)).isSome = true) :
    ∃ c, ofSetting? root = some c := by
  simp only [readers, List.forall_mem_cons, readText, readTextOrNull, readBool, readBoolOrNull, readWord, readLong,
    Option.isSome_map] at h
  simp only [Option.isSome_iff_exists] at h
  obtain ⟨⟨_, h1⟩, ⟨_, h2⟩, ⟨_, h3⟩, ⟨_, h4⟩, ⟨_, h5⟩, ⟨_, h6⟩, ⟨_, h7⟩, ⟨_, h8⟩, ⟨_, h9⟩, ⟨_, h10⟩, ⟨_, h11⟩,
    ⟨_, h12⟩, ⟨_, h13⟩, ⟨_, h14⟩, ⟨_, h15⟩, ⟨_, h16⟩, ⟨_, h17⟩, ⟨_, h18⟩, ⟨_, h19⟩, ⟨_, h20⟩, ⟨_, h21⟩, ⟨_, h22⟩,
    ⟨_, h23⟩, ⟨_, h24⟩, ⟨_, h25⟩, ⟨_, h26⟩, ⟨_, h27⟩, ⟨_, h28⟩, -⟩ := h
  have read {α : Type} {x : Option α} {f : α → Option AgentConfig} {c : AgentConfig} :
      (x >>= f) = some c ↔ ∃ a, x = some a ∧ f a = some c := Option.bind_eq_some_iff
  unfold ofSetting?
  simp only [↓read]
  exact ⟨_, _, h1, _, h2, _, h3, _, h4, _, h5, _, h6, _, h7, _, h8, _, h9, _, h10, _, h11, _, h12, _, h13, _, h14, _,
    h15, _, h16, _, h17, _, h18, _, h19, _, h20, _, h21, _, h22, _, h23, _, h24, _, h25, _, h26, _, h27, _, h28, rfl⟩

/-- **Settings from which every field can be read** are those of a configuration. -/
theorem exists_ofSetting {root : Setting} :
    (∃ c, ofSetting? root = some c) ↔ ∀ r ∈ readers, (r.2 (root.entries.lookup r.1)).isSome = true := by
  refine ⟨?_, fun h => ?_⟩
  · rintro ⟨c, hc⟩ r hr
    have hmem : (r.1, r.2 (root.entries.lookup r.1)) ∈ c.members.map fun m => (m.1, some m.2) := by
      rw [← members_eq hc]
      exact List.mem_map_of_mem hr
    obtain ⟨m, -, heq⟩ := List.mem_map.1 hmem
    rw [← (Prod.mk.inj heq).2, Option.isSome_some]
  · exact exists_of_read h

/-- A field that takes a text takes any. -/
theorem readers_take : ∀ r ∈ readers, r.1 ∈ textSettings → ∀ t, (r.2 (some (.text t))).isSome = true := by
  simp [readers, textSettings, readText, readTextOrNull, orStandard, nullable, Setting.text?]

/-- The settings in a JSON document are those of the object that it is. -/
theorem settings_json {order : Setting.Order} {env : Environment} {text : String} {root : Setting} :
    settings order env .json text = .ok root ↔ ∃ ms es, read? (env.expand text) = some (.object ms) ∧
      (Json.object ms).isSound 128 = true ∧ Setting.ofMembers? ms = some es ∧
      root = Setting.overlay (.table []) (order.arrange (Setting.latest es)) := by
  refine ⟨fun h => ?_, ?_⟩
  · unfold settings Format.entries Format.ofRoot Format.readJson? at h
    cases hread : read? (env.expand text) with
    | none =>
      rw [hread] at h
      cases h
    | some j =>
      rw [hread] at h
      simp only [Option.bind_eq_bind, Option.bind_some] at h
      by_cases hsound : j.isSound 128 = true
      · rw [if_pos hsound] at h
        split at h
        · rename_i es hes
          obtain ⟨ms, es', rfl, hms, rfl⟩ := Setting.table_of_json hes
          rw [Except.map, Except.ok.injEq, Setting.latest_latest] at h
          exact ⟨ms, es', rfl, hsound, hms, h.symm⟩
        · cases h
      · rw [if_neg hsound] at h
        cases h
  · rintro ⟨ms, es, hread, hsound, hms, rfl⟩
    unfold settings Format.entries Format.ofRoot Format.readJson?
    rw [hread]
    simp only [Option.bind_eq_bind, Option.bind_some, if_pos hsound, Setting.ofJson?, hms, Option.map_some,
      Except.map, Setting.latest_latest]

/-- A document that gives a configuration has its settings. -/
theorem settings_of_ofTextIn {order : Setting.Order} {env : Environment} {f : Format} {text : String}
    {c : AgentConfig} (h : ofTextIn order env f text = .ok c) :
    ∃ root, settings order env f text = .ok root ∧ ofSetting? root = some c := by
  unfold ofTextIn at h
  cases hroot : settings order env f text with
  | error e =>
    rw [hroot] at h
    cases h
  | ok root =>
    rw [hroot] at h
    exact ⟨root, rfl, ofSetting_of_ofValid h⟩

/-- Only validation is left when the settings are those of a configuration. -/
theorem ofValid_eq {root : Setting} {c : AgentConfig} (h : ofSetting? root = some c) :
    ofValid root = c.validate.map fun _ => c := by
  rw [ofValid, h]
  cases hv : c.validate <;> simp [hv, bind, Except.bind, Except.map, pure, Except.pure]

/-! ### A field that is a reference -/

variable {d : Placeholder} {env : Environment} {n v : String} {root : Setting} {es₁ es₂ : List (String × Setting)}
  {order : Setting.Order}

/-- **The settings in the document, for a value that spells itself**: those around the field do not depend on it. -/
theorem settings_plain (hd : d.IsPlaced) (hvalue : env.lookup (String.ofList d.name) = some v)
    (hv : IsPlain v.toList) : settings order env .json d.text = .ok root ↔
      ∃ es₁ es₂, Setting.ofMembers? d.before = some es₁ ∧ Setting.ofMembers? d.after = some es₂ ∧
        root = Setting.overlay (.table []) (order.arrange (Setting.latest (es₁ ++ (d.key, .text v) :: es₂))) := by
  have hread := d.read?_plain hd hv
  rw [String.ofList_toList, ← d.expand_eq hd hvalue] at hread
  have hsound := (d.sound_object hd (v := Json.ofText v) rfl).1
  have hfield : Setting.ofJson? (Json.ofText v) = some (.text v) := rfl
  rw [settings_json]
  refine ⟨?_, ?_⟩
  · rintro ⟨ms, es, hread', -, hms, rfl⟩
    obtain rfl := Json.object.inj (Option.some.inj (hread'.symm.trans hread))
    obtain ⟨es₁, es', h₁, h', rfl⟩ := Setting.ofMembers_append.1 hms
    obtain ⟨k, s, es₂, hk, hs, h₂, rfl⟩ := Setting.ofMembers_cons.1 h'
    obtain rfl := Option.some.inj hk
    obtain rfl := Option.some.inj (hs.symm.trans hfield)
    exact ⟨es₁, es₂, h₁, h₂, rfl⟩
  · rintro ⟨es₁, es₂, h₁, h₂, rfl⟩
    refine ⟨_, _, hread, hsound, Setting.ofMembers_append.2 ⟨es₁, _, h₁, ?_, rfl⟩, rfl⟩
    exact Setting.ofMembers_cons.2 ⟨d.key, _, es₂, rfl, hfield, h₂, rfl⟩

/-- **The settings in the document, for any value**: some text in the field, and after it entries none of which has the
value as its text. -/
theorem settings_held (hd : d.IsPlaced) (hvalue : env.lookup (String.ofList d.name) = some v)
    (h : settings order env .json d.text = .ok root) :
    ∃ t es₁ es es₂, Setting.ofMembers? d.before = some es₁ ∧ Setting.ofMembers? d.after = some es₂ ∧
      root = Setting.overlay (.table [])
        (order.arrange (Setting.latest (es₁ ++ (d.key, .text t) :: (es ++ es₂)))) ∧
      (t = v → IsPlain v.toList) ∧ ∀ e ∈ es, e.2.text? ≠ some v := by
  obtain ⟨ms, es, hread, hsound, hms, rfl⟩ := settings_json.1 h
  rw [d.expand_eq hd hvalue] at hread
  obtain ⟨t, more, heq, hplain, hquote, hshort⟩ := d.held hd hread hsound
  obtain rfl := Json.object.inj heq
  obtain ⟨es₁, es', h₁, h', rfl⟩ := Setting.ofMembers_append.1 hms
  obtain ⟨k, s, rest, hk, hs, hrest, rfl⟩ := Setting.ofMembers_cons.1 h'
  obtain ⟨es, es₂, hes, h₂, rfl⟩ := Setting.ofMembers_append.1 hrest
  obtain rfl := Option.some.inj hk
  obtain rfl : Setting.text (String.ofList t) = s := Option.some.inj hs
  refine ⟨String.ofList t, es₁, es, es₂, h₁, h₂, rfl, fun ht => (hplain ?_).2, fun e he htext => ?_⟩
  · rw [← ht, String.toList_ofList]
  · -- the value has a quote, so only a text could be written as it, and those are shorter
    obtain ⟨m, hm, hj⟩ := Setting.mem_ofMembers hes he
    have hv := hquote (List.ne_nil_of_mem hm)
    have hlt := hshort m hm v (Setting.eq_text_of_quote hj htext hv)
    exact absurd hlt (lt_irrefl _)

/-- **The setting has the text in the field**, in whatever order the settings are put. -/
theorem lookup_placed (hset : d.Sets n) (h₁ : Setting.ofMembers? d.before = some es₁)
    (h₂ : Setting.ofMembers? d.after = some es₂) (order : Setting.Order) (root : Setting) (t : String) :
    (root.overlay (order.arrange (Setting.latest (es₁ ++ (d.key, .text t) :: es₂)))).entries.lookup n =
      some (.text t) := by
  have hsimple : Setting.IsSimple (.text t) := trivial
  have hafter : ∀ e ∈ es₂, Setting.keyHead e.1 ≠ n := fun e he => hset.others h₁ h₂ e (List.mem_append_right es₁ he)
  rw [Setting.overlay_arrange order (hset.heads_nodup h₁ h₂ _), Setting.overlay_append, Setting.overlay_cons,
    Setting.overlay_other hafter, Setting.assign, hset.keySteps_eq, Setting.assignSteps, Setting.put_simple hsimple]
  show (Setting.insert (lower n) (.text t) (root.overlay es₁).entries).lookup n = _
  rw [Setting.lookup_insert, ← hset.names, lower_lower, if_pos rfl]

/-- Settings but for that of the field are the same for every text in it, in whatever orders they are put. -/
theorem lookup_alike (hset : d.Sets n) (h₁ : Setting.ofMembers? d.before = some es₁)
    (h₂ : Setting.ofMembers? d.after = some es₂) {m : String} (hm : m ≠ n) (order order' : Setting.Order)
    (root : Setting) (t t' : String) :
    (root.overlay (order.arrange (Setting.latest (es₁ ++ (d.key, .text t) :: es₂)))).entries.lookup m =
      (root.overlay (order'.arrange (Setting.latest (es₁ ++ (d.key, .text t') :: es₂)))).entries.lookup m := by
  have hhead : Setting.keyHead d.key ≠ m := by
    rw [hset.keyHead_eq]
    exact hm.symm
  rw [Setting.overlay_arrange order (hset.heads_nodup h₁ h₂ _),
    Setting.overlay_arrange order' (hset.heads_nodup h₁ h₂ _), Setting.overlay_append, Setting.overlay_append,
    Setting.overlay_cons, Setting.overlay_cons]
  refine Setting.overlay_congr es₂ ?_
  rw [Setting.assign_other _ hhead, Setting.assign_other _ hhead]

/-- **A setting of the field comes from the field**, or from an entry that the value has added. -/
theorem lookup_held (hset : d.Sets n) (h₁ : Setting.ofMembers? d.before = some es₁)
    (h₂ : Setting.ofMembers? d.after = some es₂) (order : Setting.Order) (es : List (String × Setting)) (t : String) :
    ∃ s, (Setting.overlay (.table [])
        (order.arrange (Setting.latest (es₁ ++ (d.key, .text t) :: (es ++ es₂))))).entries.lookup n = some s ∧
      (s = .text t ∨ s.IsCompound ∨ ∃ e ∈ es, e.2 = s) := by
  have hfield : (d.key, Setting.text t) ∈ es₁ ++ (d.key, .text t) :: (es ++ es₂) := by simp
  obtain ⟨e, he, hname⟩ := Setting.exists_mem_latest hfield
  have hleads : Setting.keyHead e.1 = n := by rw [hname, hset.keyHead_eq]
  obtain ⟨s, hs⟩ := Option.isSome_iff_exists.1
    (Setting.overlay_isSome ((order.perm _).mem_iff.2 he) hleads (.table []))
  refine ⟨s, hs, ?_⟩
  obtain hcompound | ⟨e', he', rfl, hhead, -⟩ | ⟨hroot, -⟩ := Setting.overlay_source hs
  · exact .inr (.inl hcompound)
  · have hmem := Setting.mem_of_mem_latest ((order.perm _).mem_iff.1 he')
    have hothers := hset.others h₁ h₂ e'
    simp only [List.mem_append, List.mem_cons] at hmem hothers
    obtain hbefore | rfl | hadded | hafter := hmem
    · exact absurd hhead (hothers (.inl hbefore))
    · exact .inl rfl
    · exact .inr (.inr ⟨e', hadded, rfl⟩)
    · exact absurd hhead (hothers (.inr hafter))
  · cases hroot

variable {env₁ env₂ : Environment} {v₁ v₂ : String} {c : AgentConfig}

/-- **The field has the value of the variable exactly if that spells itself.** -/
theorem field_expanded (hd : d.IsPlaced) (hset : d.Sets n) (hvalue : env.lookup (String.ofList d.name) = some v)
    (h : ofTextIn order env .json d.text = .ok c) : c.field n = some (Json.ofText v) ↔ IsPlain v.toList := by
  obtain ⟨root, hroot, hc⟩ := settings_of_ofTextIn h
  refine ⟨fun hfield => ?_, fun hv => ?_⟩
  · obtain ⟨t, es₁, es, es₂, h₁, h₂, rfl, hplain, hshort⟩ := settings_held hd hvalue hroot
    obtain ⟨s, hs, hcase⟩ := lookup_held hset h₁ h₂ order es t
    have hnull : s ≠ .null := by
      rintro rfl
      have hread := field_eq hc n
      rw [hs, hfield] at hread
      obtain ⟨x, hx⟩ | ⟨x, hx⟩ := readers_text hset.takes
      · simp [hx, readText, orStandard, Setting.text?] at hread
      · simp [hx, readTextOrNull, orStandard, nullable, Json.orNull, Json.ofText] at hread
    obtain ⟨t', ht', hfield'⟩ := field_text hc hset.takes hs hnull
    obtain rfl : t' = v := Option.some.inj (Json.text.inj (Option.some.inj (hfield'.symm.trans hfield)))
    obtain rfl | hcompound | ⟨e, he, rfl⟩ := hcase
    · exact hplain (Option.some.inj ht')
    · cases s <;> first | exact hcompound.elim | cases ht'
    · exact absurd ht' (hshort e he)
  · obtain ⟨es₁, es₂, h₁, h₂, rfl⟩ := (settings_plain hd hvalue hv).1 hroot
    obtain ⟨t, ht, hfield⟩ := field_text hc hset.takes (lookup_placed hset h₁ h₂ order (.table []) v) (by simp)
    rw [hfield, Option.some.inj ht]

/-- **What the value of the variable makes of the configuration**, whatever the orders in which its settings are put. If
the document gives a configuration, the field has the value exactly if that spells itself within quotes; and then, for
any other value that does, the document gives a configuration too, unless that is not valid, with that value in the
field and all other fields as they are. -/
theorem expanded_alike (order₁ order₂ : Setting.Order) (hd : d.IsPlaced) (hset : d.Sets n)
    (h₁ : env₁.lookup (String.ofList d.name) = some v₁) (h₂ : env₂.lookup (String.ofList d.name) = some v₂)
    (h : ofTextIn order₁ env₁ .json d.text = .ok c) :
    (c.field n = some (Json.ofText v₁) ↔ IsPlain v₁.toList) ∧
      (IsPlain v₁.toList → IsPlain v₂.toList → ∃ c' : AgentConfig,
        ofTextIn order₂ env₂ .json d.text = c'.validate.map (fun _ => c') ∧
        c'.field n = some (Json.ofText v₂) ∧ ∀ m, m ≠ n → c'.field m = c.field m) := by
  refine ⟨field_expanded hd hset h₁ h, fun hv₁ hv₂ => ?_⟩
  obtain ⟨root, hroot, hc⟩ := settings_of_ofTextIn h
  obtain ⟨es₁, es₂, hes₁, hes₂, rfl⟩ := (settings_plain hd h₁ hv₁).1 hroot
  have hroot' : settings order₂ env₂ .json d.text = .ok _ :=
    (settings_plain hd h₂ hv₂).2 ⟨es₁, es₂, hes₁, hes₂, rfl⟩
  have halike {m : String} (hm : m ≠ n) := lookup_alike hset hes₁ hes₂ hm order₂ order₁ (.table []) v₂ v₁
  have hplaced := lookup_placed hset hes₁ hes₂ order₂ (.table []) v₂
  obtain ⟨c', hc'⟩ := exists_ofSetting.2 fun r hr => by
    by_cases hn : r.1 = n
    · rw [hn, hplaced]
      exact readers_take r hr (hn ▸ hset.takes) v₂
    · rw [halike hn]
      exact exists_ofSetting.1 ⟨c, hc⟩ r hr
  refine ⟨c', ?_, ?_, fun m hm => field_congr hc' hc (halike hm)⟩
  · rw [ofTextIn, hroot']
    exact ofValid_eq hc'
  · obtain ⟨t, ht, hfield⟩ := field_text hc' hset.takes hplaced (by simp)
    rw [hfield, Option.some.inj ht]

/-- A document that takes the access secret from the environment. -/
def Sample.entrusted : Placeholder where
  opening := "\x7b\"device_id\":\"d\",\"access_secret\":".toList
  name := "SECRET".toList
  closing := ['\x7d']
  before := [(some "device_id", .text (some "d"))]
  key := "access_secret"
  after := []

/-- A document of texts is read as it is written. -/
theorem Sample.read_texts (ts : List (String × String)) {text : String}
    (htext : text = (ofMembers (ts.map fun t => (t.1, Json.ofText t.2))).compact) :
    read? text = some (ofMembers (ts.map fun t => (t.1, Json.ofText t.2))) := by
  rw [htext]
  refine read?_compact (readsBack_ofMembers fun m hm => ?_)
  obtain ⟨t, -, rfl⟩ := List.mem_map.1 hm
  exact readsBack_ofText t.2

theorem Sample.ofMembers_texts (ts : List (String × String)) :
    Setting.ofMembers? ((ts.map fun t => (t.1, Json.ofText t.2)).map fun m => (some m.1, m.2)) =
      some (ts.map fun t => (t.1, .text t.2)) := by
  induction ts with
  | nil => rfl
  | cons t ts ih => exact Setting.ofMembers_cons.2 ⟨t.1, .text t.2, _, rfl, rfl, ih, rfl⟩

theorem Sample.entrusted_placed : entrusted.IsPlaced where
  reads := read_texts [("device_id", "d"), ("access_secret", "$\x7bSECRET\x7d")] (by decide +kernel)
  sound := by decide +kernel
  opens := by
    have htext : String.ofList (entrusted.opening ++ Placeholder.early) =
        (ofMembers [("device_id", Json.ofText "d"), ("access_secret", .null)]).compact := by decide +kernel
    rw [htext]
    exact read?_compact (readsBack_ofMembers
      (List.forall_mem_cons.2 ⟨readsBack_ofText "d", List.forall_mem_singleton.2 readsBack_null⟩))
  refers := by decide +kernel
  alone := by decide +kernel

theorem Sample.entrusted_sets : entrusted.Sets "access_secret" where
  names := by decide
  takes := by decide
  apart := by decide

/-- What the document gives if it is one of texts with the secret in it. -/
theorem Sample.ofText_entrusted {secret : String} (ts : List (String × String)) {c : AgentConfig}
    (htext : String.ofList (entrusted.holding secret.toList) =
      (ofMembers (ts.map fun t => (t.1, Json.ofText t.2))).compact)
    (hsound : (ofMembers (ts.map fun t => (t.1, Json.ofText t.2))).isSound 128 = true)
    (hc : ofValid (Setting.overlay (.table []) (Setting.latest (ts.map fun t => (t.1, .text t.2)))) = .ok c) :
    ofText [("SECRET", secret)] .json entrusted.text = .ok c := by
  have hvalue : List.lookup (String.ofList entrusted.name) [("SECRET", secret)] = some secret := rfl
  have hread := read_texts ts htext
  rw [← Placeholder.expand_eq entrusted_placed hvalue] at hread
  rw [ofText, ofTextIn, settings_json.2 ⟨_, _, hread, hsound, Sample.ofMembers_texts ts, rfl⟩]
  exact hc

theorem expanded_alike_entrusted :
    let c := { standard with deviceId := "d", accessSecret := some "abc" }
    ofText [("SECRET", "abc")] .json Sample.entrusted.text = .ok c ∧
      c.field "access_secret" = some (Json.ofText "abc") ∧
      ∃ c' : AgentConfig, ofText [("SECRET", "a: b")] .json Sample.entrusted.text = c'.validate.map (fun _ => c') ∧
        c'.field "access_secret" = some (Json.ofText "a: b") ∧ c'.field "broker_host" = c.field "broker_host" := by
  intro c
  have h : ofText [("SECRET", "abc")] .json Sample.entrusted.text = .ok c :=
    Sample.ofText_entrusted [("device_id", "d"), ("access_secret", "abc")] (by decide +kernel) (by decide +kernel) rfl
  have hvalue (secret : String) :
      List.lookup (String.ofList Sample.entrusted.name) [("SECRET", secret)] = some secret := rfl
  obtain ⟨hfield, halike⟩ :=
    expanded_alike .written .written Sample.entrusted_placed Sample.entrusted_sets (hvalue "abc") (hvalue "a: b") h
  obtain ⟨c', hc', hfield', hothers⟩ := halike (by decide) (by decide)
  exact ⟨h, hfield.2 (by decide), c', hc', hfield', hothers "broker_host" (by decide)⟩

/-- **A secret that sets another field**: it ends the text that it stands in. -/
theorem secret_escapes :
    ofText [("SECRET", "x")] .json Sample.entrusted.text =
        .ok { standard with deviceId := "d", accessSecret := some "x" } ∧
      ofText [("SECRET", "x\",\"broker_host\":\"other")] .json Sample.entrusted.text =
        .ok { standard with deviceId := "d", accessSecret := some "x", brokerHost := "other" } :=
  ⟨Sample.ofText_entrusted [("device_id", "d"), ("access_secret", "x")] (by decide +kernel) (by decide +kernel) rfl,
    Sample.ofText_entrusted [("device_id", "d"), ("access_secret", "x"), ("broker_host", "other")] (by decide +kernel)
      (by decide +kernel) rfl⟩

end AgentConfig

end FlowHost

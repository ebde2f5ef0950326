import FlowHost.Setting.Environment
import Mathlib.Data.List.Nodup

/-!
# Variables over settings

A variable puts one value under a key, and the key begins with the name of one setting (`Setting.keyHead`). All other
settings stay as they are. So the order in which entries are put counts only where two of them lead to one setting.

* `Setting.assign_eq`: what an assignment does to each setting.
* `Setting.overlay_other`, `Setting.overlay_congr`: entries leave a setting that they do not lead to, and make the same
  of the same.
* `Setting.overlay_source`: **where a setting comes from** that is neither a table nor a list.
* `Setting.overlay_arrange`: **entries of which no two lead to one setting** make the same of it in every order.
* `Environment.overlay_spared`: **a setting that no variable leads to** stays as it is.
* `Environment.overlay_values`: **a setting that variables name** has the last value, or one that is no text.
-/

namespace FlowHost

/-! ### Letters -/

/-- A capital of the basic alphabet. -/
def isCapital (c : Char) : Prop := 65 ≤ c.toNat ∧ c.toNat ≤ 90

theorem toLower_eq_self {c : Char} (h : ¬ isCapital c) : c.toLower = c := by
  unfold Char.toLower
  split
  · rename_i hc
    exact absurd ⟨hc.1, hc.2⟩ h
  · rfl

theorem toNat_toLower {c : Char} (h : isCapital c) : c.toLower.toNat = c.toNat + 32 := by
  have hle : c.val.toNat ≤ 90 := h.2
  unfold Char.toLower
  split
  · show (c.val + 32).toNat = c.val.toNat + 32
    have hspan : UInt32.toNat 32 = 32 := rfl
    rw [UInt32.toNat_add, hspan]
    exact Nat.mod_eq_of_lt (by omega)
  · rename_i hc
    exact absurd ⟨h.1, h.2⟩ hc

theorem lowerChar_lowerChar (c : Char) : lowerChar (lowerChar c) = lowerChar c := by
  unfold lowerChar
  by_cases hk : c = '\u212A'
  · rw [if_pos hk]
    decide
  · rw [if_neg hk]
    by_cases hc : isCapital c
    · have hsmall := toNat_toLower hc
      have hne : c.toLower ≠ '\u212A' := by
        intro h
        rw [h] at hsmall
        have hbound := hc.2
        have hkelvin : '\u212A'.toNat = 8490 := rfl
        omega
      have hlow : ¬ isCapital c.toLower := by
        rintro ⟨-, hhigh⟩
        have hfirst := hc.1
        omega
      rw [if_neg hne, toLower_eq_self hlow]
    · rw [toLower_eq_self hc, if_neg hk, toLower_eq_self hc]

/-- The small form of letters is their own. -/
theorem lower_lower (text : String) : lower (lower text) = lower text := by
  unfold lower
  rw [String.toList_ofList, List.map_map]
  congr 2
  funext c
  exact lowerChar_lowerChar c

namespace Setting

/-! ### Entries -/

theorem lookup_insert (name m : String) (value : Setting) (es : List (String × Setting)) :
    (insert name value es).lookup m = if m = name then some value else es.lookup m := by
  induction es with
  | nil =>
    by_cases hm : m = name
    · simp [insert, hm]
    · simp [insert, hm, List.lookup_cons, beq_eq_false_iff_ne.2 hm]
  | cons e es ih =>
    obtain ⟨k, v⟩ := e
    unfold insert
    by_cases hk : k = name
    · rw [if_pos hk]
      by_cases hm : m = name
      · simp [hk, hm]
      · rw [if_neg hm, List.lookup_cons, List.lookup_cons, hk, beq_eq_false_iff_ne.2 hm]
    · rw [if_neg hk, List.lookup_cons, List.lookup_cons, ih]
      by_cases hmk : m = k
      · have hm : ¬ m = name := fun h => hk (hmk.symm.trans h)
        simp only [hmk, beq_self_eq_true, if_neg (hmk ▸ hm)]
      · simp only [beq_eq_false_iff_ne.2 hmk]

/-- A value that is not a table. -/
def IsSimple : Setting → Prop
  | table _ => False
  | _ => True

/-- A value that is neither a text nor to be written out as one, nor null. -/
def IsCompound : Setting → Prop
  | table _ => True
  | list _ => True
  | _ => False

theorem put_simple {name : String} {value root : Setting} (hv : value.IsSimple) :
    put name value root = table (insert (lower name) value root.entries) := by
  cases value <;> first | rfl | exact absurd hv id

theorem put_compound (name : String) (value root : Setting) : (put name value root).IsCompound := by
  cases value <;> trivial

/-- What entries are put into is a table then, or there are none. -/
theorem putAll_cases (es : List (String × Setting)) (target : Setting) :
    putAll es target = target ∨ (putAll es target).IsCompound := by
  induction es generalizing target with
  | nil => exact .inl rfl
  | cons e es ih =>
    rw [putAll]
    refine .inr ?_
    obtain heq | hcompound := ih (put e.1 e.2 target)
    · rw [heq]
      exact put_compound _ _ _
    · exact hcompound

/-- A path leads into a table or a list. -/
theorem assignSteps_compound (value : Setting) (step : KeyStep) (rest : List KeyStep) (root : Setting) :
    (assignSteps value (step :: rest) root).IsCompound := by
  cases step with
  | entry name =>
    cases rest with
    | nil => exact put_compound name value root
    | cons next more => trivial
  | item index => cases rest <;> trivial

/-! ### Keys -/

/-- The name of the setting that a key leads to, or into. -/
def keyHead (key : String) : String :=
  match keySteps key with
  | .entry name :: _ => lower name
  | _ => lower key

/-- Only where nothing is left there are no further steps. -/
theorem furtherSteps_eq_nil {fuel : Nat} {cs : List Char} (h : furtherSteps fuel cs = some []) : cs = [] := by
  unfold furtherSteps at h
  split at h
  · cases h
  · rfl
  · simp only at h
    split at h
    · cases h
    · simp at h
  · simp only at h
    split at h
    · simp at h
    · cases h
  · cases h

/-- Where nothing follows the name of a key, the name is all of it. -/
theorem takeWhile_of_drop {cs : List Char} (h : cs.drop (cs.takeWhile isNameChar).length = []) :
    cs.takeWhile isNameChar = cs :=
  (List.takeWhile_prefix isNameChar).eq_of_length_le (List.drop_eq_nil_iff.1 h)

/-- **A key begins with a name**, and without further steps it is that name. -/
theorem keySteps_cases (key : String) : ∃ name rest, keySteps key = .entry name :: rest ∧
    (rest = [] → name = lower key) := by
  unfold keySteps
  simp only
  split
  · exact ⟨lower key, [], rfl, fun _ => rfl⟩
  · split
    · rename_i rest hrest
      refine ⟨_, rest, rfl, fun hnil => ?_⟩
      -- nothing follows the name, so all characters belong to it
      rw [hnil] at hrest
      rw [takeWhile_of_drop (furtherSteps_eq_nil hrest), String.ofList_toList]
    · exact ⟨lower key, [], rfl, fun _ => rfl⟩

/-- **An assignment changes one setting**, and what it makes of it depends on nothing else: the value if the key is its
name, a table or a list if the key leads into it, or what was there if the value is a table without entries. -/
theorem assign_eq (key : String) (value : Setting) : ∃ change : Option Setting → Setting,
    (∀ root, assign root key value =
      table (insert (keyHead key) (change (root.entries.lookup (keyHead key))) root.entries)) ∧
    ∀ s, (change s).IsCompound ∨ (change s = value ∧ keyHead key = lower key) ∨
      (¬ value.IsSimple ∧ s = some (change s)) := by
  obtain ⟨name, rest, hsteps, hname⟩ := keySteps_cases key
  have hhead : keyHead key = lower name := by
    unfold keyHead
    rw [hsteps]
  unfold assign
  rw [hsteps, hhead]
  cases rest with
  | nil =>
    by_cases hv : value.IsSimple
    · exact ⟨fun _ => value, fun root => put_simple hv, fun s => .inr (.inl ⟨rfl, by rw [hname rfl, lower_lower]⟩)⟩
    · cases value with
      | table incoming =>
        refine ⟨fun s => putAll incoming (s.getD (table [])), fun root => rfl, fun s => ?_⟩
        obtain heq | hcompound := putAll_cases incoming (s.getD (table []))
        · cases s with
          | none =>
            have hempty : putAll incoming (table []) = table [] := heq
            have hcompound : (putAll incoming (table [])).IsCompound := by
              rw [hempty]
              trivial
            exact .inl hcompound
          | some target => exact .inr (.inr ⟨hv, congrArg some heq.symm⟩)
        · exact .inl hcompound
      | null => exact absurd trivial hv
      | bool b => exact absurd trivial hv
      | integer i => exact absurd trivial hv
      | real x => exact absurd trivial hv
      | text t => exact absurd trivial hv
      | list items => exact absurd trivial hv
  | cons next more =>
    refine ⟨fun s => assignSteps value (next :: more) (s.getD null), fun root => ?_,
      fun s => .inl (assignSteps_compound value next more _)⟩
    rw [assignSteps]
    exact fun hnil => nomatch hnil

/-! ### Entries over settings -/

variable {root root' : Setting} {n : String}

theorem overlay_cons (root : Setting) (e : String × Setting) (es : List (String × Setting)) :
    root.overlay (e :: es) = (root.assign e.1 e.2).overlay es := by
  rw [overlay, overlay, List.foldl_cons]

theorem overlay_append (root : Setting) (es es' : List (String × Setting)) :
    root.overlay (es ++ es') = (root.overlay es).overlay es' := by
  rw [overlay, overlay, overlay, List.foldl_append]

/-- An assignment to another setting leaves this one as it is. -/
theorem assign_other {key : String} (value : Setting) (h : keyHead key ≠ n) :
    (assign root key value).entries.lookup n = root.entries.lookup n := by
  obtain ⟨change, hassign, -⟩ := assign_eq key value
  rw [hassign, entries, lookup_insert, if_neg h.symm]

/-- **Entries that do not lead to a setting** leave it as it is. -/
theorem overlay_other {es : List (String × Setting)} (h : ∀ e ∈ es, keyHead e.1 ≠ n) :
    (root.overlay es).entries.lookup n = root.entries.lookup n := by
  induction es generalizing root with
  | nil => rfl
  | cons e es ih =>
    obtain ⟨hne, hrest⟩ := List.forall_mem_cons.1 h
    rw [overlay_cons]
    exact (ih hrest).trans (assign_other e.2 hne)

/-- **A setting on which settings agree** is the same under the same entries. -/
theorem overlay_congr (es : List (String × Setting)) (h : root.entries.lookup n = root'.entries.lookup n) :
    (root.overlay es).entries.lookup n = (root'.overlay es).entries.lookup n := by
  induction es generalizing root root' with
  | nil => exact h
  | cons e es ih =>
    rw [overlay_cons, overlay_cons]
    refine ih ?_
    obtain ⟨change, hassign, -⟩ := assign_eq e.1 e.2
    rw [hassign, hassign, entries, entries, lookup_insert, lookup_insert]
    by_cases hn : n = keyHead e.1
    · subst hn
      rw [if_pos rfl, if_pos rfl, h]
    · rw [if_neg hn, if_neg hn, h]

/-- Entries **with one that leads to a setting** give it a value. -/
theorem overlay_isSome {es : List (String × Setting)} {e : String × Setting} (he : e ∈ es) (hn : keyHead e.1 = n)
    (root : Setting) : ((root.overlay es).entries.lookup n).isSome = true := by
  induction es generalizing root e with
  | nil => cases he
  | cons e' es ih =>
    rw [overlay_cons]
    by_cases hlater : ∃ e'' ∈ es, keyHead e''.1 = n
    · obtain ⟨e'', hmem, hn''⟩ := hlater
      exact ih hmem hn'' _
    · -- the first entry is the only one that leads to the setting
      have hother : ∀ e'' ∈ es, keyHead e''.1 ≠ n := fun e'' hmem hn'' => hlater ⟨e'', hmem, hn''⟩
      obtain rfl | hmem := List.mem_cons.1 he
      · obtain ⟨change, hassign, -⟩ := assign_eq e.1 e.2
        rw [overlay_other hother, hassign, entries, lookup_insert, if_pos hn.symm, Option.isSome_some]
      · exact absurd hn (hother e hmem)

/-- **Where a setting comes from** that entries are laid over: it is a table or a list, or the value of an entry whose
key is its name, or as it was where no simple value leads to it. -/
theorem overlay_source {es : List (String × Setting)} {s : Setting}
    (h : (root.overlay es).entries.lookup n = some s) :
    s.IsCompound ∨ (∃ e ∈ es, e.2 = s ∧ keyHead e.1 = n ∧ lower e.1 = n) ∨
      root.entries.lookup n = some s ∧ ∀ e ∈ es, keyHead e.1 = n → ¬ e.2.IsSimple := by
  induction es generalizing root with
  | nil => exact .inr (.inr ⟨h, fun e he => absurd he List.not_mem_nil⟩)
  | cons e es ih =>
    rw [overlay_cons] at h
    obtain hcompound | ⟨e', he', hcase⟩ | ⟨hs, hrest⟩ := ih h
    · exact .inl hcompound
    · exact .inr (.inl ⟨e', List.mem_cons_of_mem e he', hcase⟩)
    · by_cases hn : keyHead e.1 = n
      · obtain ⟨change, hassign, hcases⟩ := assign_eq e.1 e.2
        rw [hassign, entries, lookup_insert, if_pos hn.symm, hn, Option.some.injEq] at hs
        subst hs
        obtain hcompound | ⟨hvalue, hkey⟩ | ⟨hnot, hkept⟩ := hcases (root.entries.lookup n)
        · exact .inl hcompound
        · exact .inr (.inl ⟨e, List.mem_cons_self, hvalue.symm, hn, hkey.symm.trans hn⟩)
        · exact .inr (.inr ⟨hkept, List.forall_mem_cons.2 ⟨fun _ => hnot, hrest⟩⟩)
      · rw [assign_other e.2 hn] at hs
        exact .inr (.inr ⟨hs, List.forall_mem_cons.2 ⟨fun heq => absurd heq hn, hrest⟩⟩)

/-! ### Orders -/

variable {es es' : List (String × Setting)}

/-- The settings that entries lead to. -/
def heads (es : List (String × Setting)) : List String := es.map fun e => keyHead e.1

@[simp] theorem heads_cons (e : String × Setting) (es : List (String × Setting)) :
    heads (e :: es) = keyHead e.1 :: heads es := rfl

/-- Assignments to two settings can be exchanged: each finds its own setting as it was before the other. -/
theorem assign_comm {e e' : String × Setting} (h : keyHead e.1 ≠ keyHead e'.1) (root : Setting) (n : String) :
    ((root.assign e.1 e.2).assign e'.1 e'.2).entries.lookup n =
      ((root.assign e'.1 e'.2).assign e.1 e.2).entries.lookup n := by
  obtain ⟨change, hassign, -⟩ := assign_eq e.1 e.2
  obtain ⟨change', hassign', -⟩ := assign_eq e'.1 e'.2
  generalize keyHead e.1 = m at *
  generalize keyHead e'.1 = m' at *
  simp only [hassign, hassign', entries, lookup_insert]
  by_cases hn : n = m
  · have hn' : n ≠ m' := hn ▸ h
    simp only [if_pos hn, if_neg hn', if_neg h]
  · simp only [if_neg hn, if_neg h.symm]

/-- **Entries of which no two lead to one setting** make the same of it in every order. -/
theorem overlay_perm (h : es.Perm es') (hheads : (heads es).Nodup) (root : Setting) (n : String) :
    (root.overlay es).entries.lookup n = (root.overlay es').entries.lookup n := by
  induction h generalizing root with
  | nil => rfl
  | cons e _ ih =>
    rw [overlay_cons, overlay_cons]
    exact ih (List.nodup_cons.1 hheads).2 _
  | swap e e' es =>
    rw [heads_cons, heads_cons, List.nodup_cons] at hheads
    rw [overlay_cons, overlay_cons, overlay_cons, overlay_cons]
    exact overlay_congr es (assign_comm (List.ne_of_not_mem_cons hheads.1) root n)
  | trans h _ ih ih' => exact (ih hheads root).trans (ih' ((h.map _).nodup_iff.1 hheads) root)

/-- Entries of different names are those that a map has. -/
theorem latest_eq_self (h : (es.map Prod.fst).Nodup) : latest es = es := by
  induction es with
  | nil => rfl
  | cons e es ih =>
    obtain ⟨hne, hrest⟩ := List.nodup_cons.1 h
    have hnot : ¬ (es.any fun e' => e'.1 == e.1) = true := by
      rw [List.any_eq_true]
      rintro ⟨e', he', heq⟩
      exact hne (beq_iff_eq.1 heq ▸ List.mem_map_of_mem he')
    rw [latest, if_neg hnot, ih hrest]

/-- **Under each name a map has the last entry.** -/
theorem mem_latest_iff {e : String × Setting} :
    e ∈ latest es ↔ (es.filter fun e' => e'.1 == e.1).getLast? = some e := by
  induction es with
  | nil => simp [latest]
  | cons e' es ih =>
    rw [latest, List.filter_cons]
    cases hsame : e'.1 == e.1 with
    | true =>
      rw [beq_iff_eq.1 hsame, if_pos rfl]
      cases hmore : es.filter fun e' => e'.1 == e.1 with
      | nil =>
        have hnone : ¬ (es.any fun e'' => e''.1 == e.1) = true := by
          rw [List.any_eq_true]
          rintro ⟨e'', hmem, heq⟩
          exact List.filter_eq_nil_iff.1 hmore e'' hmem heq
        have hlater : e ∉ latest es := by
          rw [ih, hmore, List.getLast?_nil]
          exact Option.some_ne_none e ∘ Eq.symm
        rw [if_neg hnone, List.mem_cons, List.getLast?_singleton, Option.some.injEq, eq_comm (a := e')]
        exact or_iff_left hlater
      | cons e₁ more =>
        have hany : (es.any fun e'' => e''.1 == e.1) = true := by
          obtain ⟨hmem, heq⟩ := List.mem_filter.1 (hmore ▸ List.mem_cons_self : e₁ ∈ es.filter fun e' => e'.1 == e.1)
          exact List.any_eq_true.2 ⟨e₁, hmem, heq⟩
        rw [if_pos hany, ih, hmore, List.getLast?_cons_cons]
    | false =>
      have hne : e ≠ e' := by
        rintro rfl
        simp at hsame
      rw [if_neg Bool.false_ne_true, ← ih]
      split
      · rfl
      · rw [List.mem_cons]
        exact or_iff_right hne

/-- What a map has are entries. -/
theorem mem_of_mem_latest {e : String × Setting} (h : e ∈ latest es) : e ∈ es :=
  (List.mem_filter.1 (List.mem_of_getLast? (mem_latest_iff.1 h))).1

/-- A map has each name once. -/
theorem nodup_latest (es : List (String × Setting)) : ((latest es).map Prod.fst).Nodup := by
  induction es with
  | nil => exact List.nodup_nil
  | cons e es ih =>
    rw [latest]
    split
    · exact ih
    · rename_i hnone
      refine List.nodup_cons.2 ⟨fun hmem => hnone ?_, ih⟩
      obtain ⟨e', he', heq⟩ := List.mem_map.1 hmem
      exact List.any_eq_true.2 ⟨e', mem_of_mem_latest he', beq_iff_eq.2 heq⟩

theorem latest_latest (es : List (String × Setting)) : latest (latest es) = latest es :=
  latest_eq_self (nodup_latest es)

/-- A map has every name that entries have. -/
theorem exists_mem_latest {e : String × Setting} (h : e ∈ es) : ∃ e' ∈ latest es, e'.1 = e.1 := by
  have hne : (es.filter fun e' => e'.1 == e.1) ≠ [] := List.ne_nil_of_mem (List.mem_filter.2 ⟨h, beq_self_eq_true e.1⟩)
  have hlast := List.getLast?_eq_some_getLast hne
  obtain ⟨-, heq⟩ := List.mem_filter.1 (List.getLast_mem hne)
  have hname := beq_iff_eq.1 heq
  refine ⟨_, mem_latest_iff.2 ?_, hname⟩
  rw [hname]
  exact hlast

/-- **Entries of which no two lead to one setting** make the same of it in the order of a map as they are written. -/
theorem overlay_arrange (order : Order) (hheads : (heads es).Nodup) (root : Setting) (n : String) :
    (root.overlay (order.arrange (latest es))).entries.lookup n = (root.overlay es).entries.lookup n := by
  have hnames : (es.map Prod.fst).Nodup := by
    have hmap : heads es = (es.map Prod.fst).map keyHead := by simp [heads]
    exact (hmap ▸ hheads).of_map keyHead
  have hperm := order.perm es
  rw [latest_eq_self hnames]
  exact overlay_perm hperm (((hperm.map _).nodup_iff).2 hheads) root n

end Setting

namespace Environment

variable {env : Environment} {root : Setting} {n : String}

theorem valueOf_simple (name value : String) : (valueOf name value).IsSimple := by
  unfold valueOf
  simp only
  split
  · trivial
  · split
    · trivial
    · split
      · trivial
      · split
        · trivial
        · split <;> trivial

/-- The name of a setting that a variable names is in small letters. -/
theorem lower_settingName {name k : String} (h : settingName? name = some k) : lower k = k := by
  unfold settingName? at h
  simp only at h
  split at h
  · obtain rfl := Option.some.inj h
    have hfix : (lower name).toList.map lowerChar = (lower name).toList := by
      have h := congrArg String.toList (lower_lower name)
      rwa [lower, String.toList_ofList] at h
    rw [lower, String.toList_ofList, List.map_drop, hfix]
  · cases h

/-- **A setting that no variable leads to**, or into. -/
def Spares (env : Environment) (n : String) : Prop :=
  ∀ v ∈ env, ∀ k ∈ settingName? v.1, Setting.keyHead k ≠ n

instance (env : Environment) (n : String) : Decidable (env.Spares n) :=
  inferInstanceAs (Decidable (∀ v ∈ env, ∀ k ∈ settingName? v.1, Setting.keyHead k ≠ n))

/-- **The values of the variables that name a setting**, in their order. -/
def values (env : Environment) (n : String) : List String :=
  env.filterMap fun v => if settingName? v.1 = some n then some v.2 else none

/-- What variables give, each under the name of its setting. -/
theorem mem_settings {e : String × Setting} (h : e ∈ env.settings) :
    ∃ v ∈ env, settingName? v.1 = some e.1 ∧ e.2 = valueOf e.1 v.2 := by
  obtain ⟨v, hv, hsome⟩ := List.mem_filterMap.1 h
  obtain ⟨k, hk, rfl⟩ := Option.map_eq_some_iff.1 hsome
  exact ⟨v, hv, hk, rfl⟩

/-- What the variables that name a setting give. -/
theorem filter_settings (env : Environment) (n : String) :
    (env.settings.filter fun e => e.1 == n) = (env.values n).map fun s => (n, valueOf n s) := by
  induction env with
  | nil => rfl
  | cons v vs ih =>
    have hsettings : settings (v :: vs) =
        ((settingName? v.1).map fun k => (k, valueOf k v.2)).toList ++ settings vs := by
      cases hk : settingName? v.1 <;> simp [settings, hk]
    have hvalues : values (v :: vs) n =
        (if settingName? v.1 = some n then [v.2] else []) ++ values vs n := by
      by_cases hn : settingName? v.1 = some n <;> simp [values, hn]
    rw [hsettings, hvalues, List.filter_append, List.map_append, ih, List.append_left_inj]
    cases hk : settingName? v.1 with
    | none => rfl
    | some k =>
      by_cases hn : k = n
      · simp [hn]
      · simp [hn]

/-- **The last variable that names a setting** is the one that counts. -/
theorem mem_latest_settings {e : String × Setting} :
    e ∈ Setting.latest env.settings ↔ ∃ s, (env.values e.1).getLast? = some s ∧ e.2 = valueOf e.1 s := by
  rw [Setting.mem_latest_iff, filter_settings, List.getLast?_map, Option.map_eq_some_iff]
  refine exists_congr fun s => and_congr_right fun _ => ?_
  rw [Prod.ext_iff]
  exact ⟨fun h => h.2.symm, fun h => ⟨rfl, h.symm⟩⟩

variable (order : Setting.Order)

/-- The settings with the variables over them. -/
theorem mem_arranged {e : String × Setting} :
    e ∈ order.arrange (Setting.latest env.settings) ↔ e ∈ Setting.latest env.settings :=
  (order.perm _).mem_iff

/-- **A setting that no variable leads to stays as it is.** -/
theorem overlay_spared (h : env.Spares n) :
    (root.overlay (order.arrange (Setting.latest env.settings))).entries.lookup n = root.entries.lookup n := by
  refine Setting.overlay_other fun e he => ?_
  obtain ⟨v, hv, hk, -⟩ := mem_settings (Setting.mem_of_mem_latest ((mem_arranged order).1 he))
  exact h v hv e.1 hk

/-- **A setting that variables name** has what the last of them gives, unless a variable led into it after
that. -/
theorem overlay_values {s : String} (hn : Setting.keyHead n = n) (h : (env.values n).getLast? = some s)
    (root : Setting) : ∃ v, (root.overlay (order.arrange (Setting.latest env.settings))).entries.lookup n = some v ∧
      (v = valueOf n s ∨ v.IsCompound) := by
  have hnamed : (n, valueOf n s) ∈ order.arrange (Setting.latest env.settings) :=
    (mem_arranged order).2 (mem_latest_settings.2 ⟨s, h, rfl⟩)
  obtain ⟨v, hv⟩ := Option.isSome_iff_exists.1 (Setting.overlay_isSome hnamed hn root)
  refine ⟨v, hv, ?_⟩
  obtain hcompound | ⟨e, he, rfl, -, hname⟩ | ⟨-, hnone⟩ := Setting.overlay_source hv
  · exact .inr hcompound
  · -- the name of its setting is in small letters, so the variable is the last that names this one
    have hmem := (mem_arranged order).1 he
    obtain ⟨v, -, hk, -⟩ := mem_settings (Setting.mem_of_mem_latest hmem)
    rw [lower_settingName hk] at hname
    obtain ⟨s', hs', hvalue⟩ := mem_latest_settings.1 hmem
    rw [hname, h] at hs'
    obtain rfl := Option.some.inj hs'
    exact .inl (by rw [hvalue, hname])
  · exact absurd (valueOf_simple n s) (hnone _ hnamed hn)

end Environment

end FlowHost

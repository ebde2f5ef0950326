import FlowHost.Bundle
import FlowHost.Proofs.Framing
import FlowHost.Proofs.Lenient
import Mathlib.Data.List.Induction

/-!
# What a bundle says of itself

Of several custom sections of one name the last one counts (`Section.IsLast`), in the order in which they are read, those
of nested binaries included.

* `Bundle.parse_ok_iff`, `Bundle.parse_unframed`: which framed octets are a bundle, and that others never are.
* `Bundle.parse_append`, `Bundle.parse_overfull`: what becomes of a bundle with another identifier at its end.
* `Bundle.parse_judges`: **which octets are a bundle, with which identifier, and how the others fail.**
* `Bundle.cut_refuses`: the end of a binary that has been cut off takes no section.
-/

namespace FlowHost

namespace Section

/-- **The last section of a name has the data.** -/
def IsLast (name : String) (sections : List Custom) (data : Bytes) : Prop :=
  ∃ before after, sections = before ++ ⟨name, data⟩ :: after ∧ ∀ s ∈ after, s.name ≠ name

variable {name : String} {sections : List Custom} {data : Bytes} {c : Custom}

theorem not_isLast_nil : ¬ IsLast name [] data := by
  rintro ⟨before, after, h, -⟩
  simp at h

theorem isLast_concat :
    IsLast name (sections ++ [c]) data ↔ if c.name = name then c.data = data else IsLast name sections data := by
  constructor
  · rintro ⟨before, after, h, hafter⟩
    rcases List.eq_nil_or_concat after with rfl | ⟨init, last, rfl⟩
    · obtain ⟨rfl, hc⟩ := List.append_inj' h rfl
      obtain rfl := List.singleton_inj.1 hc
      simp
    · rw [List.concat_eq_append, ← List.cons_append, ← List.append_assoc] at h
      obtain ⟨rfl, hc⟩ := List.append_inj' h rfl
      obtain rfl := List.singleton_inj.1 hc
      rw [if_neg (hafter _ (by simp))]
      exact ⟨before, init, rfl, fun s hs => hafter s (by simp [hs])⟩
  · intro h
    split at h
    · rename_i hname
      exact ⟨sections, [], by simp [← h, ← hname], by simp⟩
    · rename_i hname
      obtain ⟨before, after, rfl, hafter⟩ := h
      refine ⟨before, after ++ [c], by simp, fun s hs => ?_⟩
      rcases List.mem_append.1 hs with hs | hs
      · exact hafter s hs
      · rwa [List.mem_singleton.1 hs]

/-- There is one last section of a name at most. -/
theorem IsLast.unique {data' : Bytes} (h : IsLast name sections data) (h' : IsLast name sections data') :
    data = data' := by
  induction sections using List.reverseRecOn with
  | nil => exact absurd h not_isLast_nil
  | append_singleton sections c ih =>
    rw [isLast_concat] at h h'
    split at h
    · rename_i hname
      rw [if_pos hname] at h'
      exact h.symm.trans h'
    · rename_i hname
      rw [if_neg hname] at h'
      exact ih h h'

end Section

namespace Bundle

open Section

variable {name : String} {sections : List Custom} {data raw binary : Bytes} {room : Option Nat}

theorem lastSection_concat (name : String) (sections : List Custom) (c : Custom) :
    lastSection name (sections ++ [c]) =
      if c.name = name then some (Utf8.decodeLossy c.data) else lastSection name sections := by
  unfold lastSection
  rw [List.filter_append]
  by_cases hname : c.name = name
  · simp [hname]
  · simp [hname]

/-- What is found for a name is the data of its last section, read leniently. -/
theorem lastSection_iff {text : String} :
    lastSection name sections = some text ↔ ∃ data, IsLast name sections data ∧ Utf8.decodeLossy data = text := by
  induction sections using List.reverseRecOn with
  | nil =>
    constructor
    · intro h
      cases h
    · rintro ⟨data, h, -⟩
      exact absurd h not_isLast_nil
  | append_singleton sections c ih =>
    simp only [lastSection_concat, isLast_concat]
    split
    · simp
    · exact ih

/-- The version is read as the one supported only from its own octets. -/
theorem version_iff : lastSection interfaceSection sections = some supportedInterface ↔
    IsLast interfaceSection sections [0x31, 0x2E, 0x30, 0x2E, 0x30] := by
  have hversion : Utf8.encode supportedInterface = [0x31, 0x2E, 0x30, 0x2E, 0x30] := by decide
  rw [lastSection_iff]
  constructor
  · rintro ⟨data, hlast, hread⟩
    have hdata := Utf8.eq_encode_of_decodeLossy hread (by decide)
    rwa [hdata, hversion] at hlast
  · intro hlast
    exact ⟨_, hlast, by rw [← hversion, Utf8.decodeLossy_encode]⟩

/-- **The binary in the octets received**: what they inflate to if they start like a compressed member, else they
themselves. -/
def Unpacks (raw binary : Bytes) : Prop :=
  (Gzip.magic <+: raw ∧ Gzip.unpack raw = some binary) ∨ (¬ Gzip.magic <+: raw ∧ binary = raw)

theorem unpacks_iff : unpacked raw = .ok binary ↔ Unpacks raw binary := by
  have hmagic : Gzip.isMember raw = true ↔ Gzip.magic <+: raw := List.isPrefixOf_iff_prefix
  unfold unpacked Unpacks
  rw [← hmagic]
  cases Gzip.isMember raw with
  | false => simp [eq_comm]
  | true => cases Gzip.unpack raw <;> simp

/-- **Octets that are not framed are no bundle**, wherever the framing is broken. -/
theorem parse_unframed (h : ∀ binary sections room, Unpacks raw binary → ¬ Frames (.binary none) binary sections room) :
    ∃ text, parse raw = .error (.validation (.malformed text)) := by
  unfold parse
  cases hbinary : unpacked raw with
  | error e =>
    unfold unpacked at hbinary
    split at hbinary
    · split at hbinary
      · cases hbinary
      · cases hbinary
        exact ⟨_, rfl⟩
    · cases hbinary
  | ok binary =>
    cases hsections : customSections binary with
    | none => exact ⟨"section framing", by simp [hsections, bind, Except.bind]⟩
    | some sections =>
      obtain ⟨room, hframes⟩ := customSections_iff.1 hsections
      exact absurd hframes (h _ _ _ (unpacks_iff.1 hbinary))

section Framed

variable (hbinary : Unpacks raw binary) (hframes : Frames (.binary none) binary sections room)

include hbinary hframes

/-- **The version is looked at first.** -/
theorem parse_version (h : ¬ IsLast interfaceSection sections [0x31, 0x2E, 0x30, 0x2E, 0x30]) :
    parse raw = .error (.validation (.unsupportedVersion (lastSection interfaceSection sections))) := by
  have hread : customSections binary = some sections := customSections_iff.2 ⟨room, hframes⟩
  rw [← version_iff] at h
  simp only [parse, unpacks_iff.2 hbinary, hread, bind, Except.bind, if_neg h]

variable (hversion : IsLast interfaceSection sections [0x31, 0x2E, 0x30, 0x2E, 0x30])

include hversion

theorem parse_unnamed (h : ∀ data, IsLast identifierSection sections data → data = []) :
    parse raw = .error (.validation .missingBundle) := by
  have hread : customSections binary = some sections := customSections_iff.2 ⟨room, hframes⟩
  simp only [parse, unpacks_iff.2 hbinary, hread, bind, Except.bind, if_pos (version_iff.2 hversion)]
  split
  · rename_i identifier hidentifier
    obtain ⟨data, hlast, rfl⟩ := lastSection_iff.1 hidentifier
    have hempty : Utf8.decodeLossy data = "" := Utf8.decodeLossy_eq_empty.2 (h data hlast)
    rw [hempty]
    rfl
  · rfl

theorem parse_named {data : Bytes} (hlast : IsLast identifierSection sections data) (hdata : data ≠ []) :
    parse raw = .ok ⟨raw, binary, supportedInterface, Utf8.decodeLossy data⟩ := by
  have hread : customSections binary = some sections := customSections_iff.2 ⟨room, hframes⟩
  have hname : lastSection identifierSection sections = some (Utf8.decodeLossy data) :=
    lastSection_iff.2 ⟨data, hlast, rfl⟩
  have hempty : Utf8.decodeLossy data ≠ "" := fun h => hdata (Utf8.decodeLossy_eq_empty.1 h)
  simp [parse, unpacks_iff.2 hbinary, hread, bind, Except.bind, version_iff.2 hversion, hname, hempty]

end Framed

/-- **Which framed octets are a bundle.** -/
theorem parse_ok_iff (hbinary : Unpacks raw binary) (hframes : Frames (.binary none) binary sections room)
    {bundle : Bundle} : parse raw = .ok bundle ↔
      IsLast interfaceSection sections [0x31, 0x2E, 0x30, 0x2E, 0x30] ∧
        ∃ data, IsLast identifierSection sections data ∧ data ≠ [] ∧
          bundle = ⟨raw, binary, supportedInterface, Utf8.decodeLossy data⟩ := by
  constructor
  · intro h
    by_cases hversion : IsLast interfaceSection sections [0x31, 0x2E, 0x30, 0x2E, 0x30]
    · by_cases hnone : ∀ data, IsLast identifierSection sections data → data = []
      · rw [parse_unnamed hbinary hframes hversion hnone] at h
        cases h
      · push Not at hnone
        obtain ⟨data, hlast, hdata⟩ := hnone
        rw [parse_named hbinary hframes hversion hlast hdata] at h
        exact ⟨hversion, data, hlast, hdata, (Except.ok.inj h).symm⟩
    · rw [parse_version hbinary hframes hversion] at h
      cases h
  · rintro ⟨hversion, data, hlast, hdata, rfl⟩
    exact parse_named hbinary hframes hversion hlast hdata

/-! ### A section at the end -/

/-- Octets that start with framed ones do not start like a compressed member. -/
theorem unpacks_append (hframes : Frames (.binary none) raw sections room) (more : Bytes) :
    Unpacks (raw ++ more) binary ↔ binary = raw ++ more := by
  have hmagic : ¬ Gzip.magic <+: raw ++ more := by
    cases hframes with
    | @header _ e _ _ _ _ hopening =>
      cases e with
      | plain =>
        obtain ⟨a, b, rfl⟩ := hopening
        simp [Gzip.magic]
      | nesting =>
        obtain ⟨a, b, rfl⟩ := hopening
        simp [Gzip.magic]
  simp [Unpacks, hmagic]

/-- A bundle that was not compressed is framed itself. -/
theorem framed_of_parse {bundle : Bundle} (hparse : parse raw = .ok bundle) (hraw : ¬ Gzip.magic <+: raw) :
    ∃ sections room, Frames (.binary none) raw sections room := by
  by_contra hnone
  have hunframed : ∀ binary sections room, Unpacks raw binary → ¬ Frames (.binary none) binary sections room := by
    intro binary sections room hbinary hframes
    rcases hbinary with ⟨hmagic, -⟩ | ⟨-, rfl⟩
    · exact hraw hmagic
    · exact hnone ⟨sections, room, hframes⟩
  obtain ⟨text, herror⟩ := parse_unframed hunframed
  rw [hparse] at herror
  cases herror

section Append

variable {octets : Bytes} {identifier : String} {bundle : Bundle}
  (hframes : Frames (.binary none) raw sections room)
  (hoctets : IsCustomSection octets ⟨identifierSection, Utf8.encode identifier⟩)

include hframes hoctets

/-- **Where there is room for it, an identifier at the end replaces the one before.** -/
theorem parse_append (hparse : parse raw = .ok bundle) (hidentifier : identifier ≠ "")
    (hroom : ∀ r ∈ room, octets.length ≤ r) :
    parse (raw ++ octets) = .ok ⟨raw ++ octets, raw ++ octets, bundle.interfaceVersion, identifier⟩ := by
  have hself : Unpacks raw raw := by
    have hnil : Unpacks (raw ++ []) raw := (unpacks_append hframes []).2 (List.append_nil raw).symm
    rwa [List.append_nil] at hnil
  obtain ⟨hversion, data, -, -, rfl⟩ := (parse_ok_iff hself hframes).1 hparse
  obtain ⟨room', hframes'⟩ := hframes.append_custom hoctets hroom
  refine (parse_ok_iff ((unpacks_append hframes octets).2 rfl) hframes').2
    ⟨isLast_concat.2 ?_, Utf8.encode identifier, isLast_concat.2 (by rw [if_pos rfl]), ?_, ?_⟩
  · rwa [if_neg (show identifierSection ≠ interfaceSection by decide)]
  · intro hnil
    rw [← Utf8.decodeLossy_encode identifier, Utf8.decodeLossy_eq_empty.2 hnil] at hidentifier
    exact hidentifier rfl
  · rw [Utf8.decodeLossy_encode]

/-- **Where there is not, the octets are not framed any more.** -/
theorem parse_overfull (hroom : ∃ r ∈ room, r < octets.length) :
    ∃ text, parse (raw ++ octets) = .error (.validation (.malformed text)) := by
  obtain ⟨r, hr, hlong⟩ := hroom
  refine parse_unframed fun binary sections' room' hbinary hframes' => ?_
  obtain rfl := (unpacks_append hframes octets).1 hbinary
  exact hframes.not_append hr (hframes.room_pos rfl r hr) hoctets hlong (List.prefix_refl _) hlong.le _ _ hframes'

end Append

/-- **What a bundle is, and what becomes of it with another identifier at the end.** Octets that are framed, after they
are inflated if they are compressed, are a bundle if and only if the last two sections say so, and the version is judged
before the identifier; octets that are not framed never are one. -/
theorem parse_judges (raw : Bytes) :
    (∀ binary sections room, Unpacks raw binary → Frames (.binary none) binary sections room →
      ((∃ bundle, parse raw = .ok bundle) ↔
        IsLast interfaceSection sections [0x31, 0x2E, 0x30, 0x2E, 0x30] ∧
          ∃ data, IsLast identifierSection sections data ∧ data ≠ []) ∧
      (∀ bundle, parse raw = .ok bundle → bundle.raw = raw ∧ bundle.binary = binary ∧
        bundle.interfaceVersion = supportedInterface ∧
        ∀ data, IsLast identifierSection sections data → bundle.identifier = Utf8.decodeLossy data) ∧
      (¬ IsLast interfaceSection sections [0x31, 0x2E, 0x30, 0x2E, 0x30] →
        ∃ found, parse raw = .error (.validation (.unsupportedVersion found)) ∧
          ∀ text, found = some text ↔ ∃ data, IsLast interfaceSection sections data ∧ Utf8.decodeLossy data = text) ∧
      (IsLast interfaceSection sections [0x31, 0x2E, 0x30, 0x2E, 0x30] →
        (∀ data, IsLast identifierSection sections data → data = []) →
        parse raw = .error (.validation .missingBundle))) ∧
    ((∀ binary sections room, Unpacks raw binary → ¬ Frames (.binary none) binary sections room) →
      ∃ text, parse raw = .error (.validation (.malformed text))) ∧
    (∀ bundle octets identifier, parse raw = .ok bundle → ¬ Gzip.magic <+: raw → identifier ≠ "" →
      IsCustomSection octets ⟨identifierSection, Utf8.encode identifier⟩ →
      ∃ sections room, Frames (.binary none) raw sections room ∧
        ((∀ r ∈ room, octets.length ≤ r) →
          parse (raw ++ octets) = .ok ⟨raw ++ octets, raw ++ octets, bundle.interfaceVersion, identifier⟩) ∧
        ((∃ r ∈ room, r < octets.length) →
          ∃ text, parse (raw ++ octets) = .error (.validation (.malformed text)))) := by
  refine ⟨fun binary sections room hbinary hframes => ⟨⟨?_, ?_⟩, ?_, ?_, ?_⟩, parse_unframed, ?_⟩
  · rintro ⟨bundle, hparse⟩
    obtain ⟨hversion, data, hlast, hdata, -⟩ := (parse_ok_iff hbinary hframes).1 hparse
    exact ⟨hversion, data, hlast, hdata⟩
  · rintro ⟨hversion, data, hlast, hdata⟩
    exact ⟨_, parse_named hbinary hframes hversion hlast hdata⟩
  · intro bundle hparse
    obtain ⟨-, data, hlast, -, rfl⟩ := (parse_ok_iff hbinary hframes).1 hparse
    exact ⟨rfl, rfl, rfl, fun data' hlast' => by rw [hlast.unique hlast']⟩
  · intro hversion
    exact ⟨_, parse_version hbinary hframes hversion, fun text => lastSection_iff⟩
  · exact parse_unnamed hbinary hframes
  · intro bundle octets identifier hparse hraw hidentifier hoctets
    obtain ⟨sections, room, hframes⟩ := framed_of_parse hparse hraw
    exact ⟨sections, room, hframes, parse_append hframes hoctets hparse hidentifier, parse_overfull hframes hoctets⟩

/-- A plain binary that names the interface and itself. -/
def plainBundle : Bytes :=
  plainHeader ++ encodeCustom interfaceSection (Utf8.encode "1.0.0") ++ encodeCustom identifierSection [0x61]

theorem parse_judges_plain : parse plainBundle = .ok ⟨plainBundle, plainBundle, "1.0.0", "a"⟩ ∧
    let octets := encodeCustom identifierSection (Utf8.encode "b")
    parse (plainBundle ++ octets) = .ok ⟨plainBundle ++ octets, plainBundle ++ octets, "1.0.0", "b"⟩ := by
  have hparse : parse plainBundle = .ok ⟨plainBundle, plainBundle, "1.0.0", "a"⟩ := by decide +kernel
  have hsection : IsCustomSection (encodeCustom identifierSection (Utf8.encode "b")) ⟨identifierSection, Utf8.encode "b"⟩ :=
    isCustomSection_encodeCustom (by decide +kernel) (by decide +kernel)
  obtain ⟨sections, room, hframes, happend, -⟩ :=
    (parse_judges plainBundle).2.2 _ _ "b" hparse (by decide) (by decide) hsection
  obtain rfl := hframes.room_of_plain ⟨1, 0, rfl⟩ (List.append_assoc _ _ _)
  exact ⟨hparse, happend (by simp)⟩

/-- A nesting binary that names the interface and itself and ends behind the header of a nested binary, two octets before
its declared size is reached. -/
def cutBundle : Bytes :=
  [0x00, 0x61, 0x73, 0x6D, 0x0D, 0, 1, 0] ++ encodeCustom interfaceSection (Utf8.encode "1.0.0") ++
    encodeCustom identifierSection [0x61] ++ [1, 10] ++ plainHeader

/-- **The end of a binary that has been cut off takes no section.** -/
theorem cut_refuses : ¬ ∀ raw bundle identifier, parse raw = .ok bundle → ¬ Gzip.magic <+: raw → identifier ≠ "" →
    ∀ octets, IsCustomSection octets ⟨identifierSection, Utf8.encode identifier⟩ →
      parse (raw ++ octets) = .ok ⟨raw ++ octets, raw ++ octets, bundle.interfaceVersion, identifier⟩ := by
  intro hall
  have hparse : parse cutBundle = .ok ⟨cutBundle, cutBundle, "1.0.0", "a"⟩ := by decide +kernel
  have hsection : IsCustomSection (encodeCustom identifierSection (Utf8.encode "b")) ⟨identifierSection, Utf8.encode "b"⟩ :=
    isCustomSection_encodeCustom (by decide +kernel) (by decide +kernel)
  have happend := hall cutBundle _ "b" hparse (by decide) (by decide) _ hsection
  have hrefused : parse (cutBundle ++ encodeCustom identifierSection (Utf8.encode "b")) =
      .error (.validation (.malformed "section framing")) := by decide +kernel
  rw [hrefused] at happend
  cases happend

end Bundle

end FlowHost

import FlowHost.Proofs.History
import FlowHost.Proofs.Register

/-!
# From one host to a later one

`Host.Leads` ties what happened to what became of the host: the history grew by what
happened, the queue by the requests among it, and the places of the blob and of the bundle
hold **what was saved there last**.

Each piece of work leads from a host to a later one; pieces follow one another (`Leads.trans`).
-/

namespace FlowHost

open History

/-- From `h` to `h'` by what happened in between, for a blob at `P` and bundles at `Q`. -/
structure Host.Leads (P : BlobPlace) (Q : Option Path) (h : Host) (es : List Occurrence)
    (h' : Host) : Prop where
  history : h'.history = h.history ++ es
  outbound : h'.outbound = h.outbound ++ requests es
  isOpen : h'.isOpen = h.isOpen
  blob : (∀ p ∈ P.path?, ∀ q ∈ Q, p.ClearOf q) → Storage.Keeps P (lastBlob es) h.storage h'.storage
  bundle : ∀ q ∈ Q, (∀ p ∈ P.path?, q.ClearOf p) →
    Storage.Keeps (.file q) (lastBundle es) h.storage h'.storage

namespace Host

variable {P : BlobPlace} {Q : Option Path} {h h' h'' : Host} {es es' : List Occurrence} {k : Nat}

theorem Leads.refl : Leads P Q h [] h :=
  ⟨by simp, by simp, rfl, fun _ => .refl, fun _ _ _ => .refl⟩

theorem Leads.trans (hl : Leads P Q h es h') (hl' : Leads P Q h' es' h'') :
    Leads P Q h (es ++ es') h'' := by
  refine ⟨?_, ?_, hl'.isOpen.trans hl.isOpen, ?_, ?_⟩
  · rw [hl'.history, hl.history, List.append_assoc]
  · rw [hl'.outbound, hl.outbound, requests_append, List.append_assoc]
  · intro hc
    rw [lastBlob_append]
    exact (hl.blob hc).trans (hl'.blob hc)
  · intro q hq hc
    rw [lastBundle_append]
    exact (hl.bundle q hq hc).trans (hl'.bundle q hq hc)

/-- An entry of an export changes nothing but the history. -/
theorem leads_entered (f : String) (arguments : List Value) (memory : Memory) :
    Leads P Q h [.entered k f arguments memory] (h.record (.entered k f arguments memory)) :=
  ⟨rfl, (List.append_nil _).symm, rfl, fun _ => .refl, fun _ _ _ => .refl⟩

/-- Neither does its end. -/
theorem leads_left (f : String) (r : Option UInt32) :
    Leads P Q h [.left k f r] (h.record (.left k f r)) :=
  ⟨rfl, (List.append_nil _).symm, rfl, fun _ => .refl, fun _ _ _ => .refl⟩

/-- Work that touches neither the history nor the queue nor what persists. -/
theorem Leads.of_eq (h1 : h'.history = h.history) (h2 : h'.outbound = h.outbound)
    (h3 : h'.isOpen = h.isOpen) (h4 : h'.storage = h.storage) : Leads P Q h [] h' := by
  refine ⟨by simp [h1], by simp [h2], h3, fun _ => ?_, fun _ _ _ => ?_⟩ <;> rw [h4] <;> exact .refl

/-- **A queue that is open takes a request**; one that is closed drops it. -/
theorem leads_queue (sender : Option Nat) (r : Outbound) :
    Leads P Q h (if h.isOpen then [.queued sender r] else []) (h.queue sender r) := by
  unfold queue
  split
  · exact ⟨rfl, rfl, rfl, fun _ => .refl, fun _ _ _ => .refl⟩
  · exact .refl

/-- **A blob that is saved is kept**, and a failed save leaves what is kept. -/
theorem leads_saveBlob {c : Bytes} {r : Except Error Unit} (h1 : h.saveBlob P k c = (r, h')) :
    Leads P Q h (if r.toBool then [.saved k c] else []) h' := by
  unfold saveBlob at h1
  -- a save of the blob leaves the places of bundles that are clear of it
  have hclear : ∀ {r' : Except Error Unit} {st : Storage}, h.storage.save P c = (r', st) →
      ∀ q ∈ Q, (∀ p ∈ P.path?, q.ClearOf p) → Storage.Keeps (.file q) none h.storage st := by
    intro r' st hs q _ hc
    refine .of_grows (Storage.save_grows hs) ?_
    cases P with
    | memory => exact Storage.save_memory hs
    | file p => exact Storage.save_clear hs fun q' hq' => by cases hq'; exact hc p rfl
  cases hs : h.storage.save P c with
  | mk r' st =>
    cases r' with
    | ok u =>
      simp only [hs, Prod.mk.injEq] at h1
      obtain ⟨rfl, rfl⟩ := h1
      exact ⟨rfl, (List.append_nil _).symm, rfl, fun _ => .save_ok hs, hclear hs⟩
    | error e =>
      simp only [hs, Prod.mk.injEq] at h1
      obtain ⟨rfl, rfl⟩ := h1
      exact ⟨(List.append_nil _).symm, (List.append_nil _).symm, rfl, fun _ => .save_error hs, hclear hs⟩

end Host

end FlowHost

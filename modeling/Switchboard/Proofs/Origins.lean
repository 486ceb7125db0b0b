import Mathlib.Data.List.TakeWhile
import Mathlib.Data.String.Basic
import Switchboard.Origin

/-!
# Identifiers and origins

Where clients are named, an extension may go by its bare identifier or by its origin. Both mean the origin,
and reading the origin as an address gives the identifier back. No other two identifiers mean the same.
-/

namespace Switchboard

/-! ## Addresses with a plain host -/

namespace Url

variable {cs : List Char}

/-- A character that stands for itself wherever it is in an opaque host. -/
def isPlain (c : Char) : Bool := !isBlankOrControl c && !isControlOrWide c && !deniedInOpaque.contains c

theorem isPlain_eq_true {c : Char} : isPlain c = true ↔
    isBlankOrControl c = false ∧ isControlOrWide c = false ∧ c ∉ deniedInOpaque := by
  simp [isPlain, and_assoc]

theorem meaningful_of_visible {text : String} (h : ∀ c ∈ text.toList, isBlankOrControl c = false) :
    meaningful text = text.toList := by
  have kept {l : List Char} (h : ∀ c ∈ l, isBlankOrControl c = false) : l.dropWhile isBlankOrControl = l := by
    cases l with
    | nil => rfl
    | cons c => rw [List.dropWhile_cons_of_neg (by simp [h c])]
  have unbroken : ∀ c ∈ text.toList, (!isTabOrBreak c) = true := by
    intro c hc
    have visible := h c hc
    simp only [isTabOrBreak, Bool.not_eq_true', Bool.or_eq_false_iff, beq_eq_false_iff_ne]
    refine ⟨⟨?_, ?_⟩, ?_⟩ <;> rintro rfl <;> exact absurd visible (by decide)
  simp only [meaningful]
  rw [kept h, kept fun c hc => h c (List.mem_reverse.mp hc), List.reverse_reverse, List.filter_eq_self.mpr unbroken]

section

variable (h : ∀ c ∈ cs, isPlain c = true)
include h

theorem ne_of_isPlain {d : Char} (hd : d ∈ deniedInOpaque) : ∀ c ∈ cs, c ≠ d := by
  rintro c hc rfl
  exact (isPlain_eq_true.mp (h c hc)).2.2 hd

theorem splitHostPort_of_isPlain : splitHostPort false cs = (cs, []) := by
  induction cs with
  | nil => rfl
  | cons c cs ih =>
    have colon := ne_of_isPlain h (d := ':') (by decide) c List.mem_cons_self
    have bracket := ne_of_isPlain h (d := '[') (by decide) c List.mem_cons_self
    simp [splitHostPort, colon, bracket, ih fun d hd => h d (List.mem_cons_of_mem c hd)]

theorem opaqueHost?_of_isPlain : opaqueHost? cs = some (String.ofList cs) := by
  have free : bracketed? cs = none := by
    unfold bracketed?
    split
    · exact absurd rfl (ne_of_isPlain h (d := '[') (by decide) '[' List.mem_cons_self)
    · rfl
  have allowed : cs.any deniedInOpaque.contains = false := by
    rw [List.any_eq_false]
    intro c hc
    simpa using (isPlain_eq_true.mp (h c hc)).2.2
  have same : encodeControls cs = cs := by
    rw [encodeControls, List.flatMap_congr (g := fun c => [c]) fun c hc => by
      rw [(isPlain_eq_true.mp (h c hc)).2.1]; rfl]
    exact List.flatMap_singleton' cs
  simp [opaqueHost?, free, allowed, same]

/-- An authority of plain characters is the host. -/
theorem readAuthority?_of_isPlain (scheme : String) (hne : cs ≠ []) :
    readAuthority? scheme .plain cs = some ⟨scheme, some (String.ofList cs), none⟩ := by
  have whole : cs.takeWhile (fun c => !endsAuthority false c) = cs := by
    rw [List.takeWhile_eq_self_iff]
    intro c hc
    simp [endsAuthority, ne_of_isPlain h (d := '/') (by decide) c hc, ne_of_isPlain h (d := '?') (by decide) c hc,
      ne_of_isPlain h (d := '#') (by decide) c hc]
  have noUser : afterLastAt cs = none := by
    rw [afterLastAt, if_neg]
    simp only [List.contains_iff_mem]
    exact fun at' => ne_of_isPlain h (d := '@') (by decide) '@' at' rfl
  simp [readAuthority?, SchemeKind.isSpecial, whole, noUser, splitHostPort_of_isPlain h, opaqueHost?_of_isPlain h, hne]

end

end Url

/-! ## Identifiers that mean one origin -/

namespace Origin

theorem isExtensionId_ofExtensionId (id : String) : isExtensionId (ofExtensionId id) = false := by
  have foreign : ("chrome-extension" ++ "://").toList.all isExtensionIdChar = false := by decide
  rw [isExtensionId, ofExtensionId, String.toList_append, List.all_append, extensionScheme, foreign]
  simp

/-- Two identifiers mean one origin only if one is the bare form of the other. -/
theorem normalize_eq_iff {a b : String} : normalize a = normalize b ↔
    a = b ∨ (isExtensionId a = true ∧ b = ofExtensionId a) ∨ (isExtensionId b = true ∧ a = ofExtensionId b) := by
  have bare {a b : String} : ofExtensionId a = ofExtensionId b ↔ a = b := by
    simp [ofExtensionId, String.append_right_inj]
  unfold normalize
  grind [isExtensionId_ofExtensionId]

theorem eq_of_normalize {a b c : String} (hb : normalize b = normalize a) (hc : normalize c = normalize a)
    (ba : b ≠ a) (ca : c ≠ a) : b = c := by
  grind [normalize_eq_iff, isExtensionId_ofExtensionId]

theorem normalize_normalize (s : String) : normalize (normalize s) = normalize s := by
  unfold normalize
  grind [isExtensionId_ofExtensionId]

variable {id : String} (h : isExtensionId id = true)
include h

theorem isPlain_of_isExtensionId : ∀ c ∈ id.toList, Url.isPlain c = true := by
  intro c hc
  simp only [isExtensionId, Bool.and_eq_true, List.all_eq_true] at h
  have letter := h.2 c hc
  simp only [isExtensionIdChar, Bool.and_eq_true, decide_eq_true_eq] at letter
  have bounds : 97 ≤ c.toNat ∧ c.toNat ≤ 112 := letter
  refine Url.isPlain_eq_true.mpr ⟨?_, ?_, ?_⟩
  · exact decide_eq_false (by omega)
  · simp [Url.isControlOrWide]; omega
  · intro denied
    have foreign : Url.deniedInOpaque.all (fun d => d.toNat < 97 || 112 < d.toNat) = true := by decide
    have := List.all_eq_true.mp foreign c denied
    simp only [Bool.or_eq_true, decide_eq_true_eq] at this
    omega

/-- The origin of an extension is an address with the identifier as its host. -/
theorem parse?_ofExtensionId : Url.parse? (ofExtensionId id) = some ⟨extensionScheme, some id, none⟩ := by
  have plain := isPlain_of_isExtensionId h
  have text : (ofExtensionId id).toList = "chrome-extension://".toList ++ id.toList := by
    simp [ofExtensionId, extensionScheme, String.toList_append]
  have visible : ∀ c ∈ (ofExtensionId id).toList, Url.isBlankOrControl c = false := by
    intro c hc
    have fixed : "chrome-extension://".toList.all (fun c => !Url.isBlankOrControl c) = true := by decide
    rcases List.mem_append.mp (text ▸ hc) with sign | letter
    · simpa using List.all_eq_true.mp fixed c sign
    · exact (Url.isPlain_eq_true.mp (plain c letter)).1
  have scheme (cs : List Char) : Url.splitScheme? ("chrome-extension://".toList ++ cs) =
      some (extensionScheme, '/' :: '/' :: cs) := by
    rfl
  have nonempty : id.toList ≠ [] := by
    intro empty
    simp [isExtensionId, extensionIdLength, empty] at h
  rw [Url.parse?, Url.meaningful_of_visible visible, text, scheme]
  show Url.readAuthority? extensionScheme .plain id.toList = _
  rw [Url.readAuthority?_of_isPlain plain extensionScheme nonempty, String.ofList_toList]

theorem extensionId?_ofExtensionId : extensionId? (ofExtensionId id) = some id := by
  simp [extensionId?, parse?_ofExtensionId h]

theorem clientName_ofExtensionId : clientName (some (ofExtensionId id)) = id := by
  simp [clientName, parse?_ofExtensionId h]

omit h

/-- Normalizing twice changes nothing, an extension is known by its identifier again, and only the two forms of
one extension are normalized to the same. -/
theorem normalization_consistent :
    (∀ s, normalize (normalize s) = normalize s) ∧
    (∀ s, isExtensionId s = true → extensionId? (normalize s) = some s ∧ clientName (some (normalize s)) = s ∧
      infoLink (normalize s) = "https://chrome.google.com/webstore/detail/" ++ s) ∧
    ∀ s t, normalize s = normalize t → s ≠ t →
      (isExtensionId s = true ∧ t = ofExtensionId s) ∨ (isExtensionId t = true ∧ s = ofExtensionId t) := by
  refine ⟨normalize_normalize, fun s h => ?_, fun s t same distinct => ?_⟩
  · rw [normalize, if_pos h, infoLink, extensionId?_ofExtensionId h]
    exact ⟨rfl, clientName_ofExtensionId h, rfl⟩
  · exact (normalize_eq_iff.mp same).resolve_left distinct

theorem normalization_consistent_id : isExtensionId "khpfeaanjngmcnplbdlpegiifgpfgdco" = true ∧
    extensionId? (normalize "khpfeaanjngmcnplbdlpegiifgpfgdco") = some "khpfeaanjngmcnplbdlpegiifgpfgdco" := by
  have h : isExtensionId "khpfeaanjngmcnplbdlpegiifgpfgdco" = true := by decide +kernel
  exact ⟨h, (normalization_consistent.2.1 _ h).1⟩

end Origin

end Switchboard

import Mathlib.Data.List.Basic
import Skyscale.Contracts.RunSpec

/-!
# Tenant namespaces

This module embeds `NamespaceFor` of `control-plane/k8s/render.go` and decides when
two pairs of identifiers that `RLRunSpec.Validate` accepts share a namespace.

On admitted identifiers folding, mapping and trimming do nothing, so the name is
`skyscale-` followed by the first 54 characters of `tenant-project`
(`namespaceFor_eq`).  Two different pairs collide in exactly two ways: the dash
between tenant and project can be read in two places, or the joined identifiers
differ only past the cut (`namespace_isolated_iff`).  The cut may leave a dash at the end
(`namespace_valid_iff`).
-/

namespace Skyscale
namespace K8s

open Contracts

/-! ## The source function -/

/-- The rune map of `NamespaceFor`. -/
def sanitizeRune (c : Char) : Char := if isLabelChar c then c else '-'

/-- `strings.Trim(value, "-")`. -/
def trimDashes (cs : List Char) : List Char :=
  ((cs.dropWhile (· = '-')).reverse.dropWhile (· = '-')).reverse

/-- `NamespaceFor`.  After the rune map every character is one byte long, so cutting
at 63 bytes is cutting at 63 characters. -/
def namespaceFor (tenantID projectID : String) : String :=
  let value := ("skyscale-" ++ tenantID ++ "-" ++ projectID).toList.map lowerRune
  String.ofList ((trimDashes (value.map sanitizeRune)).take 63)

/-- A tenant and a project that `RLRunSpec.Validate` accepts. -/
def Admitted (tenantID projectID : String) : Prop :=
  validateID "tenant_id" tenantID = .ok () ∧ validateID "project_id" projectID = .ok ()

/-! ## Names of admitted identifiers -/

theorem dnsLabel_of_validateID {name value : String} (h : validateID name value = .ok ()) :
    dnsLabel value = true := by
  unfold validateID at h
  split at h
  · cases h
  · rename_i hok
    simp only [not_or, Bool.not_eq_false] at hok
    exact hok.2.2

theorem isLabelChar_of_dnsLabel {value : String} (h : dnsLabel value = true) :
    ∀ c ∈ value.toList, isLabelChar c = true := by
  simp only [dnsLabel, Bool.and_eq_true, List.all_eq_true] at h
  exact h.1.1

theorem exists_last_of_dnsLabel {value : String} (h : dnsLabel value = true) :
    ∃ cs c, value.toList = cs ++ [c] ∧ isAlnum c = true := by
  simp only [dnsLabel, Bool.and_eq_true] at h
  obtain ⟨c, hlast, halnum⟩ := (Option.any_eq_true _ _).mp h.2
  obtain ⟨cs, hcs⟩ := List.getLast?_eq_some_iff.mp hlast
  exact ⟨cs, c, hcs, halnum⟩

theorem ne_dash_of_isAlnum {c : Char} (h : isAlnum c = true) : c ≠ '-' := by
  rintro rfl
  exact absurd h (by decide)

/-- A kept character is neither an upper-case letter nor one of the two special
runes, so folding leaves it alone. -/
theorem lowerRune_of_isLabelChar {c : Char} (h : isLabelChar c = true) : lowerRune c = c := by
  have hkelvin : c ≠ '\u212a' := by
    rintro rfl
    exact absurd h (by decide)
  have hdotted : c ≠ '\u0130' := by
    rintro rfl
    exact absurd h (by decide)
  have hupper : ¬(c.val ≥ 'A'.val ∧ c.val ≤ 'Z'.val) := by
    simp only [isLabelChar, isAlnum, Bool.or_eq_true, Bool.and_eq_true, decide_eq_true_eq,
      Char.le_def, UInt32.le_iff_toNat_le] at h
    simp only [ge_iff_le, UInt32.le_iff_toNat_le]
    rcases h with (⟨hlo, -⟩ | ⟨-, hhi⟩) | rfl
    · change 97 ≤ c.val.toNat at hlo
      show ¬(65 ≤ c.val.toNat ∧ c.val.toNat ≤ 90)
      omega
    · change c.val.toNat ≤ 57 at hhi
      show ¬(65 ≤ c.val.toNat ∧ c.val.toNat ≤ 90)
      omega
    · decide
  rw [lowerRune, if_neg hkelvin, if_neg hdotted]
  exact dif_neg hupper

theorem map_lower_sanitize_of_isLabelChar {cs : List Char}
    (h : ∀ c ∈ cs, isLabelChar c = true) : (cs.map lowerRune).map sanitizeRune = cs := by
  rw [List.map_map]
  refine (List.map_congr_left fun c hc => ?_).trans (List.map_id cs)
  simp only [Function.comp, lowerRune_of_isLabelChar (h c hc), sanitizeRune, h c hc, if_true, id]

theorem trimDashes_of_ends {a b : Char} {cs ds : List Char} (ha : a ≠ '-') (hb : b ≠ '-')
    (h : a :: cs = ds ++ [b]) : trimDashes (a :: cs) = a :: cs := by
  have hfront : (a :: cs).dropWhile (· = '-') = a :: cs :=
    List.dropWhile_cons_of_neg (by simpa using ha)
  have hback : (a :: cs).reverse.dropWhile (· = '-') = (a :: cs).reverse := by
    rw [h, List.reverse_append]
    exact List.dropWhile_cons_of_neg (by simpa using hb)
  rw [trimDashes, hfront, hback, List.reverse_reverse]

/-- The tenant and the project with the dash between them. -/
def joined (tenantID projectID : String) : List Char :=
  tenantID.toList ++ '-' :: projectID.toList

/-- The name of an admitted pair: the product's name and what fits of the pair. -/
theorem namespaceFor_eq {tenantID projectID : String} (h : Admitted tenantID projectID) :
    namespaceFor tenantID projectID =
      String.ofList ("skyscale-".toList ++ (joined tenantID projectID).take 54) := by
  have ht := dnsLabel_of_validateID h.1
  have hp := dnsLabel_of_validateID h.2
  have hvalue : ("skyscale-" ++ tenantID ++ "-" ++ projectID).toList =
      's' :: ("kyscale-".toList ++ joined tenantID projectID) := by
    simp [joined]
  have hkept : ∀ c ∈ 's' :: ("kyscale-".toList ++ joined tenantID projectID),
      isLabelChar c = true := by
    intro c hc
    simp only [joined, List.mem_cons, List.mem_append] at hc
    rcases hc with rfl | hc | hc | rfl | hc
    · decide
    · exact List.all_eq_true.mp (by decide : "kyscale-".toList.all isLabelChar = true) c hc
    · exact isLabelChar_of_dnsLabel ht c hc
    · decide
    · exact isLabelChar_of_dnsLabel hp c hc
  obtain ⟨cs, c, hlast, halnum⟩ := exists_last_of_dnsLabel hp
  have htrim := trimDashes_of_ends (a := 's') (by decide) (ne_dash_of_isAlnum halnum)
    (show 's' :: ("kyscale-".toList ++ joined tenantID projectID) =
      ('s' :: ("kyscale-".toList ++ (tenantID.toList ++ '-' :: cs))) ++ [c] by
        simp [joined, hlast])
  simp only [namespaceFor]
  rw [hvalue, map_lower_sanitize_of_isLabelChar hkept, htrim]
  rfl

variable {t1 p1 t2 p2 : String}

/-- Two admitted pairs have one name exactly when their joined identifiers agree up
to the cut. -/
theorem namespaceFor_eq_iff (h1 : Admitted t1 p1) (h2 : Admitted t2 p2) :
    namespaceFor t1 p1 = namespaceFor t2 p2 ↔
      (joined t1 p1).take 54 = (joined t2 p2).take 54 := by
  rw [namespaceFor_eq h1, namespaceFor_eq h2, String.ofList_inj, List.append_cancel_left_eq]

/-! ## The two ways to collide -/

/-- The first pair moves the part `m` of the second pair's project to the end of the
tenant: `a-b` and `c` against `a` and `b-c`. -/
def DashShift (t1 p1 t2 p2 : String) : Prop :=
  ∃ m : String, t1 = t2 ++ "-" ++ m ∧ p2 = m ++ "-" ++ p1

/-- The joined identifiers differ, but only behind the characters that fit. -/
def CutAlike (t1 p1 t2 p2 : String) : Prop :=
  joined t1 p1 ≠ joined t2 p2 ∧ (joined t1 p1).take 54 = (joined t2 p2).take 54

instance (t1 p1 t2 p2 : String) : Decidable (CutAlike t1 p1 t2 p2) :=
  inferInstanceAs (Decidable (_ ∧ _))

theorem DashShift.joined_eq (h : DashShift t1 p1 t2 p2) :
    joined t1 p1 = joined t2 p2 := by
  obtain ⟨m, rfl, rfl⟩ := h
  simp [joined]

theorem DashShift.length_lt (h : DashShift t1 p1 t2 p2) :
    t2.length < t1.length := by
  obtain ⟨m, rfl, -⟩ := h
  simp only [String.length_append]
  have hdash : "-".length = 1 := by decide
  omega

theorem joined_eq_cases (h : joined t1 p1 = joined t2 p2) :
    (t1 = t2 ∧ p1 = p2) ∨ DashShift t1 p1 t2 p2 ∨ DashShift t2 p2 t1 p1 := by
  have split : ∀ {t p t' p' : String} {rest : List Char},
      t'.toList = t.toList ++ rest → '-' :: p.toList = rest ++ '-' :: p'.toList →
        (t = t' ∧ p = p') ∨ DashShift t' p' t p := by
    intro t p t' p' rest ht hp
    cases rest with
    | nil =>
      left
      simp only [List.append_nil, List.nil_append, List.cons.injEq, true_and] at ht hp
      exact ⟨String.toList_inj.mp ht.symm, String.toList_inj.mp hp⟩
    | cons c m =>
      -- The tenants differ, so the rest starts with the other pair's dash.
      right
      simp only [List.cons_append, List.cons.injEq] at hp
      refine ⟨String.ofList m, String.toList_inj.mp ?_, String.toList_inj.mp ?_⟩
      · simp [ht, hp.1.symm]
      · simp [hp.2]
  rcases List.append_eq_append_iff.mp h with ⟨rest, ht, hp⟩ | ⟨rest, ht, hp⟩
  · rcases split ht hp with hsame | hshift
    · exact .inl hsame
    · exact .inr (.inr hshift)
  · rcases split ht hp with hsame | hshift
    · exact .inl ⟨hsame.1.symm, hsame.2.symm⟩
    · exact .inr (.inl hshift)

/-- Two admitted pairs are kept apart, unless the dash between tenant and project can
be read in both places or the joined identifiers differ only behind the cut. -/
theorem namespace_isolated_iff (t1 p1 t2 p2 : String) (h1 : Admitted t1 p1)
    (h2 : Admitted t2 p2) :
    (namespaceFor t1 p1 = namespaceFor t2 p2 → t1 = t2 ∧ p1 = p2) ↔
      ¬DashShift t1 p1 t2 p2 ∧ ¬DashShift t2 p2 t1 p1 ∧ ¬CutAlike t1 p1 t2 p2 := by
  rw [namespaceFor_eq_iff h1 h2]
  constructor
  · intro hapart
    refine ⟨fun hshift => ?_, fun hshift => ?_, fun hcut => ?_⟩
    · have hsame := hapart (by rw [hshift.joined_eq])
      have hlt := hshift.length_lt
      rw [hsame.1] at hlt
      omega
    · have hsame := hapart (by rw [hshift.joined_eq])
      have hlt := hshift.length_lt
      rw [hsame.1] at hlt
      omega
    · obtain ⟨rfl, rfl⟩ := hapart hcut.2
      exact hcut.1 rfl
  · rintro ⟨hnot1, hnot2, hnotCut⟩ htake
    have hjoined : joined t1 p1 = joined t2 p2 := by
      by_contra hne
      exact hnotCut ⟨hne, htake⟩
    rcases joined_eq_cases hjoined with hsame | hshift | hshift
    · exact hsame
    · exact absurd hshift hnot1
    · exact absurd hshift hnot2

/-- Two projects of one tenant. -/
theorem namespace_isolated_siblings :
    (Admitted "acme" "prod" ∧ Admitted "acme" "staging") ∧
      namespaceFor "acme" "prod" ≠ namespaceFor "acme" "staging" := by
  refine ⟨⟨⟨by decide, by decide⟩, ⟨by decide, by decide⟩⟩, fun hname => ?_⟩
  have hsame := (namespace_isolated_iff "acme" "prod" "acme" "staging"
    ⟨by decide, by decide⟩ ⟨by decide, by decide⟩).mpr
      ⟨fun h => Nat.lt_irrefl _ h.length_lt, fun h => Nat.lt_irrefl _ h.length_lt, by decide⟩ hname
  exact absurd hsame.2 (by decide)

/-- Tenant `a` with project `b-c` works in the namespace of tenant `a-b` with project
`c`. -/
theorem namespace_shared :
    Admitted "a-b" "c" ∧ Admitted "a" "b-c" ∧ "a-b" ≠ "a" ∧
      namespaceFor "a-b" "c" = namespaceFor "a" "b-c" :=
  ⟨⟨by decide, by decide⟩, ⟨by decide, by decide⟩, by decide, by decide⟩

/-! ## Valid names -/

/-- A name Kubernetes accepts for a namespace. -/
structure ValidName (name : String) : Prop where
  length : 1 ≤ name.length ∧ name.length ≤ 63
  chars : ∀ c ∈ name.toList, isLabelChar c = true
  first : name.toList.head?.any isAlnum = true
  last : name.toList.getLast?.any isAlnum = true

theorem isLabelChar_joined (h : Admitted t1 p1) : ∀ c ∈ joined t1 p1, isLabelChar c = true := by
  intro c hc
  rcases List.mem_append.mp hc with hc | hc
  · exact isLabelChar_of_dnsLabel (dnsLabel_of_validateID h.1) c hc
  · rcases List.mem_cons.mp hc with rfl | hc
    · decide
    · exact isLabelChar_of_dnsLabel (dnsLabel_of_validateID h.2) c hc

theorem isAlnum_iff_of_isLabelChar {c : Char} (h : isLabelChar c = true) :
    isAlnum c = true ↔ c ≠ '-' := by
  refine ⟨ne_dash_of_isAlnum, fun hne => ?_⟩
  simpa [isLabelChar, hne] using h

/-- The name ends in a dash exactly if the cut falls behind one. -/
theorem getLast?_take_joined (h : Admitted t1 p1) :
    ((joined t1 p1).take 54).getLast?.any isAlnum = true ↔ (joined t1 p1)[53]? ≠ some '-' := by
  obtain ⟨cs, c, hlast, halnum⟩ := exists_last_of_dnsLabel (dnsLabel_of_validateID h.2)
  have hjoined : joined t1 p1 = (t1.toList ++ '-' :: cs) ++ [c] := by simp [joined, hlast]
  rcases Nat.lt_or_ge (joined t1 p1).length 55 with hshort | hlong
  · -- nothing is cut off, and the project ends in a letter or digit
    rw [List.take_of_length_le (by omega), hjoined, List.getLast?_append]
    rw [hjoined, List.length_append, List.length_singleton] at hshort
    refine ⟨fun _ hdash => ?_, fun _ => by simpa using halnum⟩
    rcases Nat.lt_or_ge 53 (t1.toList ++ '-' :: cs).length with hlt | hge
    · omega
    · rw [List.getElem?_append_right hge, List.getElem?_singleton] at hdash
      split at hdash
      · exact ne_dash_of_isAlnum halnum (Option.some.inj hdash)
      · cases hdash
  · have hget : ((joined t1 p1).take 54).getLast? = (joined t1 p1)[53]? := by
      rw [List.getLast?_eq_getElem?, List.length_take, Nat.min_eq_left (by omega),
        List.getElem?_take_of_lt (by omega)]
    obtain ⟨d, hd⟩ : ∃ d, (joined t1 p1)[53]? = some d :=
      ⟨_, List.getElem?_eq_getElem (by omega)⟩
    have hlabel := isLabelChar_joined h d (List.mem_of_getElem? hd)
    rw [hget, hd, Option.any_some, isAlnum_iff_of_isLabelChar hlabel]
    simp

/-- The name of an admitted pair is valid, unless the cut falls behind a dash: the 54th
character of the joined identifiers. -/
theorem namespace_valid_iff (tenantID projectID : String) (h : Admitted tenantID projectID) :
    ValidName (namespaceFor tenantID projectID) ↔
      (joined tenantID projectID)[53]? ≠ some '-' := by
  rw [← getLast?_take_joined h]
  have hname : (namespaceFor tenantID projectID).toList =
      "skyscale-".toList ++ (joined tenantID projectID).take 54 := by
    rw [namespaceFor_eq h, String.toList_ofList]
  have hne : (joined tenantID projectID).take 54 ≠ [] := by simp [joined]
  have hlast : (namespaceFor tenantID projectID).toList.getLast? =
      ((joined tenantID projectID).take 54).getLast? := by
    rw [hname, List.getLast?_append_of_ne_nil _ hne]
  refine ⟨fun hvalid => hlast ▸ hvalid.last, fun halnum => ⟨?_, ?_, ?_, hlast.symm ▸ halnum⟩⟩
  · rw [← String.length_toList, hname, List.length_append, List.length_take]
    have hprefix : "skyscale-".toList.length = 9 := by decide
    omega
  · rw [hname]
    intro c hc
    rcases List.mem_append.mp hc with hc | hc
    · exact List.all_eq_true.mp (by decide : "skyscale-".toList.all isLabelChar = true) c hc
    · exact isLabelChar_joined h c (List.mem_of_mem_take hc)
  · rw [hname]
    rfl

theorem namespace_valid_short :
    Admitted "acme" "prod" ∧ ValidName (namespaceFor "acme" "prod") := by
  have hadmitted : Admitted "acme" "prod" := ⟨by decide, by decide⟩
  exact ⟨hadmitted, (namespace_valid_iff "acme" "prod" hadmitted).mpr (by decide)⟩

theorem namespace_ends_in_dash :
    Admitted "aaaaaaaaaaaaaaaaaaaaaaaaaaaaaaaaaaaaaaaaaaaaaaaaaaaaa" "prod" ∧
      (namespaceFor "aaaaaaaaaaaaaaaaaaaaaaaaaaaaaaaaaaaaaaaaaaaaaaaaaaaaa"
        "prod").toList.getLast? =
        some '-' :=
  ⟨⟨by decide, by decide⟩, by decide⟩

end K8s
end Skyscale

import Mathlib.Data.List.Infix
import Skyscale.K8s.Namespace

/-!
# Deployment slugs

`slugify` of `control-plane/deployment/deployment.go` and the slug `Manager.Deploy` makes of
an application and an endpoint.  A slug has no dash at either end and no two dashes in a row
(`SlugChars`), so the two dashes between the components can be found again
(`slug_unambiguous`).
-/

namespace Skyscale
namespace Deployment

open K8s

/-- The tables of the package `unicode` that `slugify` reads. -/
structure Unicode where
  toLower : Char → Char
  isLetter : Char → Bool
  isDigit : Char → Bool
  dash : (isLetter '-' || isDigit '-') = false
  slash : (isLetter '/' || isDigit '/') = false

/-- The part of the tables that covers ASCII. -/
def ascii : Unicode where
  toLower := Char.toLower
  isLetter := Char.isAlpha
  isDigit := Char.isDigit
  dash := by decide
  slash := by decide

/-- The string builder and `lastDash`. -/
structure Builder where
  text : List Char
  lastDash : Bool

/-- The body of the loop over the runes. -/
def writeRune (u : Unicode) (b : Builder) (r : Char) : Builder :=
  if u.isLetter r || u.isDigit r then ⟨b.text ++ [r], false⟩
  else if b.lastDash = false ∧ 0 < b.text.length then ⟨b.text ++ ['-'], true⟩
  else b

/-- `strings.Contains(out, "--")`. -/
def hasDashes (out : List Char) : Bool := decide (['-', '-'] <:+: out)

/-- `strings.ReplaceAll(out, "--", "-")`. -/
def mergeDashes : List Char → List Char
  | '-' :: '-' :: rest => '-' :: mergeDashes rest
  | c :: rest => c :: mergeDashes rest
  | [] => []

theorem length_mergeDashes_le (out : List Char) : (mergeDashes out).length ≤ out.length := by
  fun_induction mergeDashes out with
  | case1 rest ih => simp; omega
  | case2 c rest _ ih => simpa using ih
  | case3 => simp

theorem length_mergeDashes_lt {out : List Char} (h : hasDashes out = true) :
    (mergeDashes out).length < out.length := by
  replace h : ['-', '-'] <:+: out := of_decide_eq_true h
  fun_induction mergeDashes out with
  | case1 rest ih =>
    have hle := length_mergeDashes_le rest
    simp only [List.length_cons]
    omega
  | case2 c rest hno ih =>
    rcases List.infix_cons_iff.mp h with ⟨tail, htail⟩ | hrest
    · obtain ⟨rfl, rfl⟩ := List.cons.inj htail
      exact (hno _ rfl rfl).elim
    · simpa using ih hrest
  | case3 => simp at h

/-- The last loop of `slugify`. -/
def squeeze (out : List Char) : List Char :=
  if hasDashes out = true then squeeze (mergeDashes out) else out
termination_by out.length
decreasing_by exact length_mergeDashes_lt (by assumption)

/-- The loop over the runes of `strings.ToLower(s)`. -/
def build (u : Unicode) (s : String) : Builder :=
  (s.toList.map u.toLower).foldl (writeRune u) ⟨[], false⟩

def slugify (u : Unicode) (s : String) : String :=
  String.ofList (squeeze (trimDashes (build u s).text))

/-- The slug of `Manager.Deploy`. -/
def deploymentSlug (u : Unicode) (appName endpointName : String) : String :=
  slugify u appName ++ "--" ++ slugify u endpointName

/-! ## The shape of a slug -/

/-- What the loop keeps: single dashes between letters and digits. -/
structure Tidy (u : Unicode) (b : Builder) : Prop where
  single : ¬['-', '-'] <:+: b.text
  last : b.lastDash = false → b.text.getLast? ≠ some '-'
  chars : ∀ c ∈ b.text, (u.isLetter c || u.isDigit c) = true ∨ c = '-'

theorem not_infix_concat {cs : List Char} {c : Char} (h : ¬['-', '-'] <:+: cs)
    (hlast : c = '-' → cs.getLast? ≠ some '-') : ¬['-', '-'] <:+: cs ++ [c] := by
  rw [List.infix_concat_iff]
  rintro (⟨front, hfront⟩ | hpart)
  · have hsplit : (front ++ ['-']) ++ ['-'] = cs ++ [c] := by simpa using hfront
    obtain ⟨rfl, hc⟩ := List.append_inj' hsplit rfl
    exact hlast (List.singleton_inj.mp hc).symm (by simp)
  · exact h hpart

theorem Tidy.writeRune {u : Unicode} {b : Builder} (h : Tidy u b) (r : Char) :
    Tidy u (writeRune u b r) := by
  unfold Deployment.writeRune
  split
  · rename_i halnum
    have hne : r ≠ '-' := by
      rintro rfl
      rw [u.dash] at halnum
      cases halnum
    refine ⟨not_infix_concat h.single fun hr => absurd hr hne, fun _ => by simpa using hne, ?_⟩
    intro c hc
    rcases List.mem_append.mp hc with hc | hc
    · exact h.chars c hc
    · exact .inl (List.mem_singleton.mp hc ▸ halnum)
  · split
    · rename_i hdash
      refine ⟨not_infix_concat h.single fun _ => h.last hdash.1, nofun, fun c hc => ?_⟩
      rcases List.mem_append.mp hc with hc | hc
      · exact h.chars c hc
      · exact .inr (List.mem_singleton.mp hc)
    · exact h

theorem Tidy.foldl {u : Unicode} (rs : List Char) {b : Builder} (h : Tidy u b) :
    Tidy u (rs.foldl (Deployment.writeRune u) b) := by
  induction rs generalizing b with
  | nil => exact h
  | cons r rs ih => exact ih (h.writeRune r)

theorem isInfix_trimDashes (cs : List Char) : trimDashes cs <:+: cs := by
  have hback : trimDashes cs <+: cs.dropWhile (· = '-') := by
    rw [← List.reverse_suffix, trimDashes, List.reverse_reverse]
    exact List.dropWhile_suffix _
  exact hback.isInfix.trans (List.dropWhile_suffix _).isInfix

theorem head?_dropWhile_dash (cs : List Char) : (cs.dropWhile (· = '-')).head? ≠ some '-' := by
  intro h
  have hhead := List.head?_dropWhile_not (fun c => decide (c = '-')) cs
  rw [h] at hhead
  simp at hhead

theorem getLast?_trimDashes (cs : List Char) : (trimDashes cs).getLast? ≠ some '-' := by
  rw [trimDashes, List.getLast?_reverse]
  exact head?_dropWhile_dash _

/-- The characters of a slug: no dash at its ends, no two dashes in a row, no slash. -/
structure SlugChars (cs : List Char) : Prop where
  single : ¬['-', '-'] <:+: cs
  last : cs.getLast? ≠ some '-'
  slash : '/' ∉ cs

theorem tidy_build (u : Unicode) (s : String) : Tidy u (build u s) :=
  Tidy.foldl _ ⟨by simp, nofun, nofun⟩

theorem single_trimmed (u : Unicode) (s : String) :
    ¬['-', '-'] <:+: trimDashes (build u s).text :=
  fun hdashes => (tidy_build u s).single (hdashes.trans (isInfix_trimDashes _))

/-- The last loop of `slugify` is never entered: the first has written no two dashes in a row. -/
theorem slugify_eq (u : Unicode) (s : String) :
    slugify u s = String.ofList (trimDashes (build u s).text) := by
  rw [slugify, squeeze, if_neg]
  exact fun hdashes => single_trimmed u s (of_decide_eq_true hdashes)

theorem slugChars (u : Unicode) (s : String) : SlugChars (slugify u s).toList := by
  have htidy := tidy_build u s
  have hpart := isInfix_trimDashes (build u s).text
  rw [slugify_eq, String.toList_ofList]
  refine ⟨single_trimmed u s, getLast?_trimDashes _, fun hslash => ?_⟩
  rcases htidy.chars '/' (hpart.subset hslash) with halnum | hdash
  · rw [u.slash] at halnum
    cases halnum
  · exact absurd hdash (by decide)

theorem eq_of_append_dashes {xs ys xs' ys' : List Char} (h : SlugChars xs) (h' : SlugChars xs')
    (heq : xs ++ ['-', '-'] ++ ys = xs' ++ ['-', '-'] ++ ys') : xs = xs' ∧ ys = ys' := by
  have hsplit : ∀ {xs ys xs' ys' rest : List Char}, SlugChars xs' → xs' = xs ++ rest →
      ['-', '-'] ++ ys = rest ++ (['-', '-'] ++ ys') → xs = xs' ∧ ys = ys' := by
    intro xs ys xs' ys' rest h' hxs hys
    rcases rest with - | ⟨c, - | ⟨d, rest⟩⟩
    · exact ⟨by simpa using hxs.symm, by simpa using hys⟩
    · obtain ⟨rfl, -⟩ := List.cons.inj hys
      exact absurd (by simp [hxs]) h'.last
    · obtain ⟨rfl, hrest⟩ := List.cons.inj hys
      obtain ⟨rfl, -⟩ := List.cons.inj hrest
      exact absurd ⟨xs, rest, by simp [hxs]⟩ h'.single
  rw [List.append_assoc, List.append_assoc] at heq
  rcases List.append_eq_append_iff.mp heq with ⟨rest, hxs, hys⟩ | ⟨rest, hxs, hys⟩
  · exact hsplit h' hxs hys
  · obtain ⟨hx, hy⟩ := hsplit h hxs hys
    exact ⟨hx.symm, hy.symm⟩

/-- **Slugs are unambiguous.**  Two deployments share a slug only if their components slugify
equally, and no slug has a slash. -/
theorem slug_unambiguous (u : Unicode) (a b c d : String) :
    (deploymentSlug u a b = deploymentSlug u c d →
      slugify u a = slugify u c ∧ slugify u b = slugify u d) ∧
    '/' ∉ (slugify u a).toList := by
  refine ⟨fun h => ?_, (slugChars u a).slash⟩
  have hlist : (slugify u a).toList ++ ['-', '-'] ++ (slugify u b).toList =
      (slugify u c).toList ++ ['-', '-'] ++ (slugify u d).toList := by
    simpa [deploymentSlug] using congrArg String.toList h
  obtain ⟨hfirst, hsecond⟩ := eq_of_append_dashes (slugChars u a) (slugChars u c) hlist
  exact ⟨String.toList_inj.mp hfirst, String.toList_inj.mp hsecond⟩

theorem slug_unambiguous_myApp :
    deploymentSlug ascii "My/App" "v1" = deploymentSlug ascii "-my  app!" "V1" ∧
      (slugify ascii "My/App" = slugify ascii "-my  app!" ∧
        slugify ascii "v1" = slugify ascii "V1") ∧
      '/' ∉ (slugify ascii "My/App").toList := by
  have hslug : deploymentSlug ascii "My/App" "v1" = deploymentSlug ascii "-my  app!" "V1" := by
    simp only [deploymentSlug, slugify_eq]
    decide +kernel
  obtain ⟨hcomponents, hslash⟩ := slug_unambiguous ascii "My/App" "v1" "-my  app!" "V1"
  exact ⟨hslug, hcomponents hslug, hslash⟩

end Deployment
end Skyscale

import Mathlib.Logic.Function.Basic

/-! Pictures painted site by site. A stroke may miss the picture, and then nothing that is
painted after it counts. -/

namespace Baelux.Painting

variable {Site Colour : Type} [DecidableEq Site]

/-- The site a stroke falls on, if it falls on the picture, and its colour. -/
abbrev Stroke (Site Colour : Type) := Option Site × Colour

def paint : List (Stroke Site Colour) → (Site → Colour) → Option (Site → Colour)
  | [], picture => some picture
  | (site, colour) :: strokes, picture =>
      site.bind fun site => paint strokes (Function.update picture site colour)

def lastOn : List (Stroke Site Colour) → Site → Option Colour
  | [], _ => none
  | (place, colour) :: strokes, site =>
      (lastOn strokes site).or (if place = some site then some colour else none)

def shown (strokes : List (Stroke Site Colour)) (picture : Site → Colour) : Site → Colour :=
  fun site => (lastOn strokes site).getD (picture site)

theorem paint_append (first second : List (Stroke Site Colour)) (picture : Site → Colour) :
    paint (first ++ second) picture = (paint first picture).bind (paint second) := by
  induction first generalizing picture with
  | nil => rfl
  | cons stroke first ih =>
      obtain ⟨site, colour⟩ := stroke
      cases site with
      | none => rfl
      | some site => exact ih _

theorem paint_missed {strokes : List (Stroke Site Colour)} {colour : Colour}
    (missed : (none, colour) ∈ strokes) (picture : Site → Colour) :
    paint strokes picture = none := by
  obtain ⟨before, after, rfl⟩ := List.append_of_mem missed
  rw [paint_append]
  cases paint before picture with
  | none => rfl
  | some reached => rfl

theorem paint_eq_shown {strokes : List (Stroke Site Colour)}
    (hits : ∀ stroke ∈ strokes, stroke.1 ≠ none) (picture : Site → Colour) :
    paint strokes picture = some (shown strokes picture) := by
  induction strokes generalizing picture with
  | nil => rfl
  | cons stroke strokes ih =>
      obtain ⟨place, colour⟩ := stroke
      have rest := ih fun other member => hits other (List.mem_cons_of_mem _ member)
      cases place with
      | none => exact absurd rfl (hits _ List.mem_cons_self)
      | some place =>
          refine (rest _).trans (congrArg some (funext fun site => ?_))
          unfold shown
          rw [lastOn]
          cases lastOn strokes site with
          | some colour => rfl
          | none =>
              by_cases here : site = place
              · subst here
                simp
              · simp [here, Ne.symm here]

theorem paint_eq_none {strokes : List (Stroke Site Colour)} (picture : Site → Colour) :
    paint strokes picture = none ↔ ∃ colour, (none, colour) ∈ strokes := by
  constructor
  · intro stops
    by_contra hits
    rw [paint_eq_shown] at stops
    · cases stops
    · rintro ⟨place, colour⟩ member rfl
      exact hits ⟨colour, member⟩
  · rintro ⟨colour, missed⟩
    exact paint_missed missed picture

theorem lastOn_of_colours {strokes : List (Stroke Site Colour)} {colours : Site → Colour}
    (hits : ∀ stroke ∈ strokes, ∃ site, stroke = (some site, colours site)) (site : Site) :
    lastOn strokes site =
      if some site ∈ strokes.map Prod.fst then some (colours site) else none := by
  induction strokes with
  | nil => rfl
  | cons stroke strokes ih =>
      obtain ⟨place, rfl⟩ := hits stroke List.mem_cons_self
      rw [lastOn, ih fun other member => hits other (List.mem_cons_of_mem _ member)]
      simp only [List.map_cons, List.mem_cons, Option.some.injEq, eq_comm (a := site)]
      by_cases later : some site ∈ strokes.map Prod.fst
      · rw [if_pos later, if_pos (Or.inr later)]
        rfl
      · by_cases here : place = site
        · subst here
          rw [if_neg later, if_pos rfl, if_pos (Or.inl rfl)]
          rfl
        · rw [if_neg later, if_neg here, if_neg (not_or_intro here later)]
          rfl

theorem paint_colours (colours : Site → Colour) {strokes : List (Stroke Site Colour)}
    (hits : ∀ stroke ∈ strokes, ∃ site, stroke = (some site, colours site))
    (picture : Site → Colour) :
    paint strokes picture = some fun site =>
      if some site ∈ strokes.map Prod.fst then colours site else picture site := by
  rw [paint_eq_shown]
  · refine congrArg some (funext fun site => ?_)
    rw [shown, lastOn_of_colours hits]
    split <;> rfl
  · intro stroke member
    obtain ⟨site, rfl⟩ := hits stroke member
    exact Option.some_ne_none site

end Baelux.Painting

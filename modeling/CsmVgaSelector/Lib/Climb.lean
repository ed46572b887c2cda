import Mathlib.Data.List.Nodup
import Mathlib.Tactic.Common

/-!
# Climbs

From a place one link at most leads up, and a link has its base, the place it is next left from. A climb goes up
link by link until it stands at the top. There is one climb from a place at most, it takes no link twice, and
whatever else goes up from the place by its links is the beginning of the climb or begins with it.
-/

namespace Climb

variable {α ι : Type*}

/-- The links of a climb from this place to the top, in the order they are taken. -/
inductive Climbs (up : α → Option ι) (base : ι → α) (top : α) : α → List ι → Prop where
  | done : Climbs up base top top []
  | step {place : α} {link : ι} {links : List ι} (hbelow : place ≠ top) (hup : up place = some link)
      (hrest : Climbs up base top (base link) links) : Climbs up base top place (link :: links)

/-- Links that stand one above the other from this place up, past the top or not as far. -/
inductive Leads (above : α → ι → Prop) (base : ι → α) : α → List ι → Prop where
  | nil {place : α} : Leads above base place []
  | cons {place : α} {link : ι} {links : List ι} (habove : above place link)
      (hrest : Leads above base (base link) links) : Leads above base place (link :: links)

variable {up : α → Option ι} {above : α → ι → Prop} {base : ι → α} {top place : α} {links links' : List ι}
  {link : ι}

theorem Climbs.unique (h : Climbs up base top place links) (h' : Climbs up base top place links') :
    links = links' := by
  induction h generalizing links' with
  | done =>
      cases h' with
      | done => rfl
      | step hbelow => exact absurd rfl hbelow
  | step hbelow hup _ ih =>
      cases h' with
      | done => exact absurd rfl hbelow
      | step _ hup' hrest' =>
          obtain rfl := Option.some.inj (hup.symm.trans hup')
          rw [ih hrest']

/-- Past any of its links a climb goes on from that link's base. -/
theorem Climbs.past {before after : List ι} (h : Climbs up base top place (before ++ link :: after)) :
    Climbs up base top (base link) after := by
  induction before generalizing place with
  | nil =>
      cases h with
      | step _ _ hrest => exact hrest
  | cons first before ih =>
      cases h with
      | step _ _ hrest => exact ih hrest

theorem Climbs.nodup (h : Climbs up base top place links) : links.Nodup := by
  induction h with
  | done => exact List.nodup_nil
  | step hbelow hup hrest ih =>
      refine List.nodup_cons.mpr ⟨fun hagain => ?_, ih⟩
      obtain ⟨before, after, hsplit⟩ := List.append_of_mem hagain
      have hlater := Climbs.past (hsplit ▸ hrest)
      have hlength := congrArg List.length (hsplit.symm.trans (hrest.unique hlater))
      simp only [List.length_append, List.length_cons] at hlength
      omega

/-- A climb takes the only link that stands above each of its places. -/
def Only (up : α → Option ι) (above : α → ι → Prop) : Prop :=
  ∀ place link link', up place = some link → above place link' → link' = link

/-- Links that never come by the top begin every climb from their place. -/
theorem Leads.prefix_climbs (honly : Only up above) (h : Leads above base place links)
    (hclimb : Climbs up base top place links') (hplace : place ≠ top)
    (hbelow : ∀ link ∈ links, base link ≠ top) : links <+: links' := by
  induction h generalizing links' with
  | nil => exact List.nil_prefix
  | cons habove _ ih =>
      cases hclimb with
      | done => exact absurd rfl hplace
      | step _ hup hrest =>
          obtain rfl := honly _ _ _ hup habove
          refine List.cons_prefix_cons.mpr ⟨rfl, ih hrest ?_ fun link hlink => ?_⟩
          · exact hbelow _ (List.mem_cons_self ..)
          · exact hbelow link (List.mem_cons_of_mem _ hlink)

/-- Links that come by the top begin with the climb. -/
theorem Leads.climbs_prefix (honly : Only up above) (h : Leads above base place links)
    (hclimb : Climbs up base top place links') (htop : ∃ link ∈ links, base link = top) :
    links' <+: links := by
  induction h generalizing links' with
  | nil =>
      obtain ⟨link, hlink, -⟩ := htop
      cases hlink
  | @cons place first links habove hrest ih =>
      cases hclimb with
      | done => exact List.nil_prefix
      | step _ hup hclimb =>
          obtain rfl := honly _ _ _ hup habove
          refine List.cons_prefix_cons.mpr ⟨rfl, ?_⟩
          by_cases hfirst : base first = top
          · rw [hfirst] at hclimb
            rw [hclimb.unique .done]
            exact List.nil_prefix
          · obtain ⟨link, hlink, hbase⟩ := htop
            rcases List.mem_cons.mp hlink with rfl | hlater
            · exact absurd hbase hfirst
            · exact ih hclimb ⟨link, hlater, hbase⟩

/-- Links go on with one that stands above where they end. -/
theorem Leads.concat (h : Leads above base place links)
    (habove : above ((links.getLast?.map base).getD place) link) :
    Leads above base place (links ++ [link]) := by
  induction h with
  | nil => exact .cons habove .nil
  | @cons place first links hfirst _ ih =>
      refine .cons hfirst (ih ?_)
      rw [List.getLast?_cons] at habove
      cases hlinks : links.getLast? <;> simpa [hlinks] using habove

/-- The last link of a climb has its base at the top. -/
theorem Climbs.base_last (h : Climbs up base top place (links ++ [link])) : base link = top := by
  have hpast := h.past
  cases hpast
  rfl

/-- No earlier link has. -/
theorem Climbs.base_init (h : Climbs up base top place (links ++ [link])) : ∀ link' ∈ links, base link' ≠ top := by
  intro link' hlink'
  obtain ⟨before, after, rfl⟩ := List.append_of_mem hlink'
  rw [List.append_assoc, List.cons_append] at h
  have hpast := h.past
  intro htop
  rw [htop] at hpast
  simpa using hpast.unique .done

/-- Links whose last base is the top, and no earlier one, are the climb. -/
theorem Leads.eq_climbs (honly : Only up above) (h : Leads above base place (links ++ [link]))
    (hclimb : Climbs up base top place links') (hplace : place ≠ top)
    (hbelow : ∀ link ∈ links, base link ≠ top) (hlast : base link = top) : links' = links ++ [link] := by
  obtain ⟨rest, hrest⟩ := h.climbs_prefix honly hclimb ⟨link, by simp, hlast⟩
  rcases List.eq_nil_or_concat rest with rfl | ⟨front, final, rfl⟩
  · rw [← hrest, List.append_nil]
  · -- a climb that ends earlier would end at a link whose base is not the top
    rw [List.concat_eq_append, ← List.append_assoc] at hrest
    obtain ⟨hfront, -⟩ := List.append_inj' hrest rfl
    rcases List.eq_nil_or_concat links' with rfl | ⟨before, final', rfl⟩
    · cases hclimb
      exact absurd rfl hplace
    · rw [List.concat_eq_append] at hclimb hfront
      exact absurd hclimb.base_last (hbelow final' (by simp [← hfront]))

end Climb

import Mathlib.Tactic

/-!
A forest of three levels with focus pointers.
-/

namespace Yaade.Library

open List Option Function

set_option linter.unusedSectionVars false

structure RootNode (γ ι : Type*) where
  hidden : Bool
  group : Option γ
  item : Option ι

structure GroupNode (ρ ι : Type*) where
  root : ρ
  hidden : Bool
  item : Option ι

structure ItemNode (ρ γ : Type*) where
  root : ρ
  group : Option γ
  hidden : Bool

structure FocusForest (ρ γ ι : Type*) where
  root : ρ → Option (RootNode γ ι)
  group : γ → Option (GroupNode ρ ι)
  item : ι → Option (ItemNode ρ γ)

namespace FocusForest

variable {ρ γ ι : Type*}

def Owned (f : FocusForest ρ γ ι) (r : ρ) (g : γ) : Prop :=
  ∃ w, f.group g = some w ∧ w.root = r ∧ w.hidden = false

def Held (f : FocusForest ρ γ ι) (g : γ) (i : ι) : Prop :=
  ∃ x, f.item i = some x ∧ x.group = some g ∧ x.hidden = false

def Visible (f : FocusForest ρ γ ι) : Prop :=
  ∃ r v, f.root r = some v ∧ v.hidden = false

/-- No pointer of the forest leads astray, and every root has a group left. -/
structure Anchored (f : FocusForest ρ γ ι) : Prop where
  owns : ∀ r v, f.root r = some v → ∃ g, f.Owned r g
  placed : ∀ i x, f.item i = some x → x.hidden = false →
    ∃ g, x.group = some g ∧ f.Owned x.root g
  rootGroup : ∀ r v g, f.root r = some v → v.group = some g → f.Owned r g
  groupItem : ∀ g w i, f.group g = some w → w.hidden = false → w.item = some i → f.Held g i
  rootItem : ∀ r v i, f.root r = some v → v.item = some i →
    ∃ g, v.group = some g ∧ f.Held g i

structure Focused (f : FocusForest ρ γ ι) : Prop extends Anchored f where
  visible : f.Visible

variable [DecidableEq ρ] [DecidableEq γ] [DecidableEq ι]

def setRoot (f : FocusForest ρ γ ι) (r : ρ) (v : RootNode γ ι) : FocusForest ρ γ ι :=
  { f with root := Function.update f.root r (some v) }

def setGroup (f : FocusForest ρ γ ι) (g : γ) (w : GroupNode ρ ι) : FocusForest ρ γ ι :=
  { f with group := Function.update f.group g (some w) }

def setItem (f : FocusForest ρ γ ι) (i : ι) (x : ItemNode ρ γ) : FocusForest ρ γ ι :=
  { f with item := Function.update f.item i (some x) }

def hideItems (f : FocusForest ρ γ ι) (g : γ) : FocusForest ρ γ ι :=
  { f with
    item := fun i => (f.item i).map fun x =>
      if x.group = some g then { x with hidden := true } else x }

section Lookup

variable (f : FocusForest ρ γ ι)

@[simp, grind =] theorem root_setRoot (r r' : ρ) (v : RootNode γ ι) :
    (f.setRoot r v).root r' = if r' = r then some v else f.root r' := by
  simp [setRoot, update_apply]

@[simp, grind =] theorem group_setRoot (r : ρ) (g : γ) (v : RootNode γ ι) :
    (f.setRoot r v).group g = f.group g := rfl

@[simp, grind =] theorem item_setRoot (r : ρ) (i : ι) (v : RootNode γ ι) :
    (f.setRoot r v).item i = f.item i := rfl

@[simp, grind =] theorem root_setGroup (g : γ) (r : ρ) (w : GroupNode ρ ι) :
    (f.setGroup g w).root r = f.root r := rfl

@[simp, grind =] theorem group_setGroup (g g' : γ) (w : GroupNode ρ ι) :
    (f.setGroup g w).group g' = if g' = g then some w else f.group g' := by
  simp [setGroup, update_apply]

@[simp, grind =] theorem item_setGroup (g : γ) (i : ι) (w : GroupNode ρ ι) :
    (f.setGroup g w).item i = f.item i := rfl

@[simp, grind =] theorem root_setItem (i : ι) (r : ρ) (x : ItemNode ρ γ) :
    (f.setItem i x).root r = f.root r := rfl

@[simp, grind =] theorem group_setItem (i : ι) (g : γ) (x : ItemNode ρ γ) :
    (f.setItem i x).group g = f.group g := rfl

@[simp, grind =] theorem item_setItem (i i' : ι) (x : ItemNode ρ γ) :
    (f.setItem i x).item i' = if i' = i then some x else f.item i' := by
  simp [setItem, update_apply]

@[simp, grind =] theorem root_hideItems (g : γ) (r : ρ) : (f.hideItems g).root r = f.root r := rfl

@[simp, grind =] theorem group_hideItems (g g' : γ) : (f.hideItems g).group g' = f.group g' := rfl

@[simp, grind =] theorem owned_setRoot (r r' : ρ) (v : RootNode γ ι) (g : γ) :
    (f.setRoot r v).Owned r' g ↔ f.Owned r' g := Iff.rfl

@[simp, grind =] theorem held_setRoot (r : ρ) (v : RootNode γ ι) (g : γ) (i : ι) :
    (f.setRoot r v).Held g i ↔ f.Held g i := Iff.rfl

@[simp, grind =] theorem owned_setGroup (g g' : γ) (w : GroupNode ρ ι) (r : ρ) :
    (f.setGroup g w).Owned r g' ↔
      if g' = g then w.root = r ∧ w.hidden = false else f.Owned r g' := by
  by_cases h : g' = g
  · simp [Owned, h]
  · simp [Owned, h]

@[simp, grind =] theorem held_setGroup (g g' : γ) (w : GroupNode ρ ι) (i : ι) :
    (f.setGroup g w).Held g' i ↔ f.Held g' i := Iff.rfl

@[simp, grind =] theorem owned_setItem (i : ι) (x : ItemNode ρ γ) (r : ρ) (g : γ) :
    (f.setItem i x).Owned r g ↔ f.Owned r g := Iff.rfl

@[simp, grind =] theorem held_setItem (i i' : ι) (x : ItemNode ρ γ) (g : γ) :
    (f.setItem i x).Held g i' ↔
      if i' = i then x.group = some g ∧ x.hidden = false else f.Held g i' := by
  by_cases h : i' = i
  · simp [Held, h]
  · simp [Held, h]

@[simp, grind =] theorem owned_hideItems (g g' : γ) (r : ρ) :
    (f.hideItems g).Owned r g' ↔ f.Owned r g' := Iff.rfl

@[simp, grind =] theorem held_hideItems (g g' : γ) (i : ι) :
    (f.hideItems g).Held g' i ↔ g' ≠ g ∧ f.Held g' i := by
  unfold Held hideItems
  constructor
  · rintro ⟨x, hx, hgroup, hopen⟩
    obtain ⟨y, hy, rfl⟩ := map_eq_some_iff.mp hx
    by_cases hg : y.group = some g
    · simp [hg] at hopen
    simp only [hg, if_false] at hgroup hopen
    refine ⟨?_, y, hy, hgroup, hopen⟩
    rintro rfl
    exact hg hgroup
  · rintro ⟨hne, x, hx, hgroup, hopen⟩
    have hg : x.group ≠ some g := by
      rw [hgroup]
      simpa using hne
    exact ⟨x, by simp [hx, hg], hgroup, hopen⟩

theorem setRoot_self {r : ρ} {v : RootNode γ ι} (h : f.root r = some v) : f.setRoot r v = f := by
  unfold setRoot
  rw [← h, update_eq_self]

theorem setGroup_self {g : γ} {w : GroupNode ρ ι} (h : f.group g = some w) :
    f.setGroup g w = f := by
  unfold setGroup
  rw [← h, update_eq_self]

theorem setItem_self {i : ι} {x : ItemNode ρ γ} (h : f.item i = some x) : f.setItem i x = f := by
  unfold setItem
  rw [← h, update_eq_self]

end Lookup

variable {f : FocusForest ρ γ ι}

theorem not_owned_of_fresh {g : γ} (h : f.group g = none) (r : ρ) : ¬ f.Owned r g := by
  rintro ⟨w, hw, -⟩
  rw [h] at hw
  cases hw

theorem Visible.refocus (h : f.Visible) {r : ρ} {v : RootNode γ ι} (hr : f.root r = some v)
    (group : Option γ) (item : Option ι) : (f.setRoot r ⟨v.hidden, group, item⟩).Visible := by
  obtain ⟨r', v', hv', hopen⟩ := h
  by_cases hr' : r' = r
  · refine ⟨r, ⟨v.hidden, group, item⟩, by simp, ?_⟩
    have heq : v' = v := by
      subst hr'
      exact Option.some.inj (hv'.symm.trans hr)
    exact heq ▸ hopen
  · exact ⟨r', v', by simpa [hr'] using hv', hopen⟩

theorem Anchored.plant (h : f.Anchored) {r : ρ} {g : γ} (hfresh : f.group g = none) :
    ((f.setRoot r ⟨false, some g, none⟩).setGroup g ⟨r, false, none⟩).Focused := by
  have hunowned := not_owned_of_fresh hfresh
  refine ⟨⟨?_, ?_, ?_, ?_, ?_⟩, r, ⟨false, some g, none⟩, by simp, rfl⟩
  · intro r' v hv
    by_cases hr : r' = r
    · exact ⟨g, by simp [hr]⟩
    · obtain ⟨g', hg'⟩ := h.owns r' v (by simpa [hr] using hv)
      exact ⟨g', by grind⟩
  · intro i x hx hopen
    obtain ⟨g', hxg, hg'⟩ := h.placed i x hx hopen
    exact ⟨g', hxg, by grind⟩
  · intro r' v g' hv hg'
    have hold := h.rootGroup r' v g'
    grind
  · intro g' w i hw hopen hi
    have hold := h.groupItem g' w i
    grind
  · intro r' v i hv hi
    have hold := h.rootItem r' v i
    grind

theorem Anchored.point (h : f.Anchored) {r : ρ} {v v' : RootNode γ ι}
    (hr : f.root r = some v) (hgroup : ∀ g, v'.group = some g → f.Owned r g)
    (hitem : ∀ i, v'.item = some i → ∃ g, v'.group = some g ∧ f.Held g i) :
    (f.setRoot r v').Anchored := by
  refine ⟨?_, h.placed, ?_, h.groupItem, ?_⟩
  · intro r' u hu
    by_cases hr' : r' = r
    · exact h.owns r' v (hr' ▸ hr)
    · exact h.owns r' u (by simpa [hr'] using hu)
  · intro r' u g hu hg
    by_cases hr' : r' = r
    · subst hr'
      simp only [root_setRoot, if_true, Option.some.injEq] at hu
      exact hgroup g (hu ▸ hg)
    · exact h.rootGroup r' u g (by simpa [hr'] using hu) hg
  · intro r' u i hu hi
    by_cases hr' : r' = r
    · subst hr'
      simp only [root_setRoot, if_true, Option.some.injEq] at hu
      subst hu
      exact hitem i hi
    · exact h.rootItem r' u i (by simpa [hr'] using hu) hi

theorem Anchored.setHidden (h : f.Anchored) {r : ρ} {v : RootNode γ ι}
    (hr : f.root r = some v) (hidden : Bool) :
    (f.setRoot r { v with hidden }).Anchored :=
  h.point hr (fun g => h.rootGroup r v g hr) (fun i => h.rootItem r v i hr)

section

variable (h : f.Focused)
include h

theorem Focused.reveal {r : ρ} {v : RootNode γ ι}
    (hr : f.root r = some v) : (f.setRoot r { v with hidden := false }).Focused where
  toAnchored := h.setHidden hr false
  visible := ⟨r, { v with hidden := false }, by simp, rfl⟩

theorem Focused.blur {r : ρ} {v : RootNode γ ι} (hr : f.root r = some v)
    {group : Option γ} (hgroup : group = none ∨ group = v.group) :
    (f.setRoot r ⟨v.hidden, group, none⟩).Focused := by
  refine ⟨h.point hr ?_ (by simp), h.visible.refocus hr _ _⟩
  intro g hg
  rcases hgroup with hnone | hsame
  · rw [hnone] at hg
    cases hg
  · exact h.rootGroup r v g hr (hsame ▸ hg)

theorem Focused.focusGroup {r : ρ} {v : RootNode γ ι} {g : γ}
    {w : GroupNode ρ ι} (hr : f.root r = some v) (hg : f.group g = some w)
    (howner : w.root = r) (hopen : w.hidden = false) :
    (f.setRoot r ⟨v.hidden, some g, w.item⟩).Focused := by
  refine ⟨h.point hr ?_ ?_, h.visible.refocus hr _ _⟩
  · intro g' hg'
    cases hg'
    exact ⟨w, hg, howner, hopen⟩
  · intro i hi
    exact ⟨g, rfl, h.groupItem g w i hg hopen hi⟩

theorem Focused.addGroup {r : ρ} {g : γ} (hfresh : f.group g = none) :
    (f.setGroup g ⟨r, false, none⟩).Focused := by
  have hunowned := not_owned_of_fresh hfresh
  have howned : ∀ r' g', f.Owned r' g' → (f.setGroup g ⟨r, false, none⟩).Owned r' g' := by
    intro r' g' hg'
    have hne : g' ≠ g := fun heq => hunowned r' (heq ▸ hg')
    simpa [hne] using hg'
  refine ⟨⟨?_, ?_, ?_, ?_, h.rootItem⟩, h.visible⟩
  · intro r' v hv
    obtain ⟨g', hg'⟩ := h.owns r' v hv
    exact ⟨g', howned r' g' hg'⟩
  · intro i x hx hopen
    obtain ⟨g', hxg, hg'⟩ := h.placed i x hx hopen
    exact ⟨g', hxg, howned x.root g' hg'⟩
  · intro r' v g' hv hg'
    exact howned r' g' (h.rootGroup r' v g' hv hg')
  · intro g' w i hw hopen hi
    have hold := h.groupItem g' w i
    grind

theorem Focused.graft {r : ρ} {v : RootNode γ ι} {g : γ}
    (hr : f.root r = some v) (hfresh : f.group g = none) :
    ((f.setGroup g ⟨r, false, none⟩).setRoot r
      ⟨v.hidden, v.group.or (some g), v.item⟩).Focused := by
  have hadded := h.addGroup (r := r) hfresh
  refine ⟨hadded.point hr ?_ ?_, hadded.visible.refocus hr _ _⟩
  · intro g' hg'
    cases hv : v.group with
    | none =>
      simp only [hv, none_or, Option.some.injEq] at hg'
      simp [hg'.symm]
    | some first =>
      simp only [hv, some_or, Option.some.injEq] at hg'
      exact hadded.rootGroup r v g' hr (hg' ▸ hv)
  · intro i hi
    obtain ⟨g', hg', hheld⟩ := h.rootItem r v i hr hi
    exact ⟨g', by simp [hg'], hheld⟩

end

theorem Anchored.aim (h : f.Anchored) {g : γ} {w : GroupNode ρ ι} (hg : f.group g = some w)
    {item : Option ι} (hitem : ∀ i, item = some i → w.hidden = false → f.Held g i) :
    (f.setGroup g { w with item }).Anchored := by
  have howned : ∀ r g', (f.setGroup g { w with item }).Owned r g' ↔ f.Owned r g' := by
    intro r g'
    by_cases hg' : g' = g
    · subst hg'
      simp [Owned, hg]
    · simp [hg']
  refine ⟨?_, ?_, ?_, ?_, h.rootItem⟩
  · intro r v hv
    obtain ⟨g', hg'⟩ := h.owns r v hv
    exact ⟨g', (howned r g').mpr hg'⟩
  · intro i x hx hopen
    obtain ⟨g', hxg, hg'⟩ := h.placed i x hx hopen
    exact ⟨g', hxg, (howned x.root g').mpr hg'⟩
  · intro r v g' hv hg'
    exact (howned r g').mpr (h.rootGroup r v g' hv hg')
  · intro g' u i hu hopen hi
    by_cases hg' : g' = g
    · subst hg'
      simp only [group_setGroup, if_true, Option.some.injEq] at hu
      subst hu
      exact hitem i hi hopen
    · exact h.groupItem g' u i (by simpa [hg'] using hu) hopen hi

theorem Focused.focusItem (h : f.Focused) {r : ρ} {v : RootNode γ ι} {g : γ}
    {w : GroupNode ρ ι} {i : ι} (hr : f.root r = some v) (hg : f.group g = some w)
    (howned : f.Owned r g) (hheld : f.Held g i) :
    ((f.setGroup g { w with item := some i }).setRoot r ⟨v.hidden, some g, some i⟩).Focused := by
  have haimed : (f.setGroup g { w with item := some i }).Anchored :=
    h.aim hg fun j hj _ => Option.some.inj hj ▸ hheld
  refine ⟨haimed.point hr ?_ ?_, Visible.refocus h.visible hr _ _⟩
  · intro g' hg'
    cases hg'
    obtain ⟨u, hu, hroot, hopen⟩ := howned
    cases Option.some.inj (hg.symm.trans hu)
    simp [hroot, hopen]
  · intro j hj
    cases hj
    exact ⟨g, rfl, hheld⟩

/-- No root and no open group points at item `i`. -/
structure Unpointed (f : FocusForest ρ γ ι) (i : ι) : Prop where
  group : ∀ g w, f.group g = some w → w.hidden = false → w.item ≠ some i
  root : ∀ r v, f.root r = some v → v.item ≠ some i

theorem Anchored.unpointed_of_fresh (h : f.Anchored) {i : ι} (hfresh : f.item i = none) :
    f.Unpointed i where
  group := by
    intro g w hg hopen hi
    obtain ⟨x, hx, -⟩ := h.groupItem g w i hg hopen hi
    rw [hfresh] at hx
    cases hx
  root := by
    intro r v hr hi
    obtain ⟨g, -, x, hx, -⟩ := h.rootItem r v i hr hi
    rw [hfresh] at hx
    cases hx

theorem Anchored.replaceItem (h : f.Anchored) {i : ι} (hfree : f.Unpointed i) {x : ItemNode ρ γ}
    (hplaced : x.hidden = false → ∃ g, x.group = some g ∧ f.Owned x.root g) :
    (f.setItem i x).Anchored := by
  refine ⟨h.owns, ?_, h.rootGroup, ?_, ?_⟩
  · intro j y hy hopen
    by_cases hj : j = i
    · subst hj
      simp only [item_setItem, if_true, Option.some.injEq] at hy
      subst hy
      exact hplaced hopen
    · exact h.placed j y (by simpa [hj] using hy) hopen
  · intro g w j hg hopen hj
    have hne : j ≠ i := fun heq => hfree.group g w hg hopen (heq ▸ hj)
    simpa [hne] using h.groupItem g w j hg hopen hj
  · intro r v j hr hj
    have hne : j ≠ i := fun heq => hfree.root r v hr (heq ▸ hj)
    obtain ⟨g, hg, hheld⟩ := h.rootItem r v j hr hj
    exact ⟨g, hg, by simpa [hne] using hheld⟩

theorem Focused.addItem (h : f.Focused) {r : ρ} {v : RootNode γ ι} {g : γ}
    {w : GroupNode ρ ι} {i : ι} (hr : f.root r = some v) (hg : f.group g = some w)
    (howned : f.Owned r g) (hfresh : f.item i = none) :
    (((f.setItem i ⟨r, some g, false⟩).setGroup g { w with item := some i }).setRoot r
      ⟨v.hidden, some g, some i⟩).Focused := by
  have hadded : (f.setItem i ⟨r, some g, false⟩).Focused :=
    ⟨h.replaceItem (h.unpointed_of_fresh hfresh) fun _ => ⟨g, rfl, howned⟩, h.visible⟩
  exact hadded.focusItem hr hg howned (by simp)

def dropItem (f : FocusForest ρ γ ι) (i : ι) (next : Option ι) (g : γ) (w : GroupNode ρ ι)
    (r : ρ) (v : RootNode γ ι) : FocusForest ρ γ ι :=
  (f.setGroup g { w with item := if w.item = some i then next else w.item }).setRoot r
    ⟨v.hidden, v.group, if v.item = some i then next else v.item⟩

section Drop

variable {i : ι} {g : γ} {w : GroupNode ρ ι} {r : ρ} {v : RootNode γ ι} {next : Option ι}

theorem Focused.dropItem (h : f.Focused) (hr : f.root r = some v) (hg : f.group g = some w)
    (hheld : f.Held g i) (hnext : ∀ j, next = some j → f.Held g j) :
    (f.dropItem i next g w r v).Focused := by
  have haimed : (f.setGroup g
      { w with item := if w.item = some i then next else w.item }).Anchored := by
    refine h.aim hg ?_
    intro j hj hopen
    split at hj
    · exact hnext j hj
    · exact h.groupItem g w j hg hopen hj
  refine ⟨haimed.point hr ?_ ?_, Visible.refocus h.visible hr _ _⟩
  · intro g' hg'
    exact haimed.rootGroup r v g' hr hg'
  · intro j hj
    split at hj
    · rename_i hi
      obtain ⟨g', hvg, x, hx, hxg, hopen⟩ := h.rootItem r v i hr hi
      obtain ⟨y, hy, hyg, -⟩ := hheld
      cases Option.some.inj (hx.symm.trans hy)
      have heq : g' = g := Option.some.inj (hxg.symm.trans hyg)
      exact ⟨g, by rw [hvg, heq], hnext j hj⟩
    · exact h.rootItem r v j hr hj

theorem Focused.dropItem_unpointed (h : f.Focused) (hr : f.root r = some v)
    (hg : f.group g = some w) (hroot : w.root = r) (hheld : f.Held g i)
    (hnext : ∀ j, next = some j → j ≠ i) : (f.dropItem i next g w r v).Unpointed i := by
  obtain ⟨y, hy, hyg, -⟩ := hheld
  constructor
  · intro g' u hu hopen hi
    by_cases hg' : g' = g
    · subst hg'
      simp only [FocusForest.dropItem, group_setRoot, group_setGroup, if_true,
        Option.some.injEq] at hu
      subst hu
      dsimp only at hi
      split at hi
      · exact hnext i hi rfl
      · contradiction
    · obtain ⟨x, hx, hxg, -⟩ :=
        h.groupItem g' u i (by simpa [FocusForest.dropItem, hg'] using hu) hopen hi
      cases Option.some.inj (hx.symm.trans hy)
      exact hg' (Option.some.inj (hxg.symm.trans hyg))
  · intro r' u hu hi
    by_cases hr' : r' = r
    · subst hr'
      simp only [FocusForest.dropItem, root_setRoot, if_true, Option.some.injEq] at hu
      subst hu
      dsimp only at hi
      split at hi
      · exact hnext i hi rfl
      · contradiction
    · have hold : f.root r' = some u := by simpa [FocusForest.dropItem, hr'] using hu
      obtain ⟨g', hvg, x, hx, hxg, -⟩ := h.rootItem r' u i hold hi
      cases Option.some.inj (hx.symm.trans hy)
      have heq : g' = g := Option.some.inj (hxg.symm.trans hyg)
      obtain ⟨w', hw', howner, -⟩ := h.rootGroup r' u g' hold hvg
      rw [heq, hg] at hw'
      cases hw'
      exact hr' (howner.symm.trans hroot)

theorem Focused.closeItem (h : f.Focused) (hr : f.root r = some v) (hg : f.group g = some w)
    (hroot : w.root = r) (hheld : f.Held g i)
    (hnext : ∀ j, next = some j → j ≠ i ∧ f.Held g j) {x : ItemNode ρ γ}
    (hx : x.hidden = true) : ((f.setItem i x).dropItem i next g w r v).Focused := by
  have hdropped := h.dropItem hr hg hheld fun j hj => (hnext j hj).2
  have hfree := h.dropItem_unpointed hr hg hroot hheld fun j hj => (hnext j hj).1
  have hhidden : ((f.dropItem i next g w r v).setItem i x).Focused :=
    ⟨hdropped.replaceItem hfree (by simp [hx]), hdropped.visible⟩
  exact hhidden

theorem Focused.moveItem (h : f.Focused) (hr : f.root r = some v) (hg : f.group g = some w)
    (hroot : w.root = r) (hheld : f.Held g i) (hnext : ∀ j, next = some j → j ≠ i ∧ f.Held g j)
    {t : γ} {u : GroupNode ρ ι} (htgt : t ≠ g) (ht : f.group t = some u) (howned : f.Owned r t) :
    ((((f.setItem i ⟨r, some t, false⟩).setGroup g
      { w with item := if w.item = some i then next else w.item }).setGroup t
      { u with item := some i }).setRoot r ⟨v.hidden, some t, some i⟩).Focused := by
  have hdropped := h.dropItem hr hg hheld fun j hj => (hnext j hj).2
  have hfree := h.dropItem_unpointed hr hg hroot hheld fun j hj => (hnext j hj).1
  have howned' : (f.dropItem i next g w r v).Owned r t := by
    simpa [FocusForest.dropItem, htgt] using howned
  have hmoved : ((f.dropItem i next g w r v).setItem i ⟨r, some t, false⟩).Focused :=
    ⟨hdropped.replaceItem hfree fun _ => ⟨t, rfl, howned'⟩, hdropped.visible⟩
  have hfocused := hmoved.focusItem (r := r) (g := t) (i := i) (w := u)
    (v := ⟨v.hidden, v.group, if v.item = some i then next else v.item⟩)
    (by simp [FocusForest.dropItem]) (by simp [FocusForest.dropItem, htgt, ht]) howned'
    (by simp)
  have heq : ∀ a b : RootNode γ ι,
      Function.update (Function.update f.root r (some a)) r (some b) =
        Function.update f.root r (some b) := by
    intro a b
    exact update_idem _ _ _
  simpa only [FocusForest.dropItem, setRoot, setGroup, setItem, heq] using hfocused

end Drop

theorem Focused.hideGroup (h : f.Focused) {g : γ} {w : GroupNode ρ ι}
    (hfree : ∀ r v, f.root r = some v → v.group ≠ some g)
    (hother : ∀ r, f.Owned r g → ∃ g', g' ≠ g ∧ f.Owned r g') (hw : w.hidden = true) :
    ((f.hideItems g).setGroup g w).Focused := by
  refine ⟨⟨?_, ?_, ?_, ?_, ?_⟩, h.visible⟩
  · intro r v hv
    obtain ⟨g', hg'⟩ := h.owns r v hv
    by_cases heq : g' = g
    · obtain ⟨g'', hne, howned⟩ := hother r (heq ▸ hg')
      exact ⟨g'', by simpa [hne] using howned⟩
    · exact ⟨g', by simpa [heq] using hg'⟩
  · intro i x hx hopen
    obtain ⟨y, hy, rfl⟩ := map_eq_some_iff.mp hx
    by_cases hyg : y.group = some g
    · simp [hyg] at hopen
    simp only [hyg, if_false] at hopen ⊢
    obtain ⟨g', hg', howned⟩ := h.placed i y hy hopen
    have hne : g' ≠ g := fun heq => hyg (heq ▸ hg')
    exact ⟨g', hg', by simpa [hne] using howned⟩
  · intro r v g' hv hg'
    have hne : g' ≠ g := fun heq => hfree r v hv (heq ▸ hg')
    simpa [hne] using h.rootGroup r v g' hv hg'
  · intro g' u i hu hopen hi
    by_cases hg' : g' = g
    · simp only [group_setGroup, hg', if_true, Option.some.injEq] at hu
      rw [← hu, hw] at hopen
      cases hopen
    · have hold := h.groupItem g' u i (by simpa [hg'] using hu) hopen hi
      simpa [hg'] using hold
  · intro r v i hv hi
    obtain ⟨g', hg', hheld⟩ := h.rootItem r v i hv hi
    have hne : g' ≠ g := fun heq => hfree r v hv (heq ▸ hg')
    exact ⟨g', hg', by simpa [hne] using hheld⟩

theorem Focused.closeGroup (h : f.Focused) {r : ρ} {v : RootNode γ ι} {g g' : γ}
    {w w' u : GroupNode ρ ι} (hr : f.root r = some v) (hg : f.group g = some w)
    (hroot : w.root = r) (hg' : f.group g' = some u) (hne : g' ≠ g) (howner : u.root = r)
    (hopen : u.hidden = false) (hw' : w'.hidden = true) : (((f.hideItems g).setGroup g w').setRoot r
      (if v.group = some g then ⟨v.hidden, some g', u.item⟩ else v)).Focused := by
  have howned : f.Owned r g' := ⟨u, hg', howner, hopen⟩
  have hmoved : (f.setRoot r
      (if v.group = some g then ⟨v.hidden, some g', u.item⟩ else v)).Focused := by
    split
    · exact h.focusGroup hr hg' howner hopen
    · exact ⟨h.setHidden hr v.hidden, h.visible.refocus hr v.group v.item⟩
  refine hmoved.hideGroup (g := g) ?_ ?_ hw'
  · intro r' v' hv' hpoint
    by_cases hr' : r' = r
    · simp only [hr', root_setRoot, if_true, Option.some.injEq] at hv'
      subst hv'
      split at hpoint
      · exact hne (Option.some.inj hpoint)
      · contradiction
    · have hold : f.root r' = some v' := by simpa [hr'] using hv'
      obtain ⟨w'', hw'', howner', -⟩ := h.rootGroup r' v' g hold hpoint
      rw [hg] at hw''
      cases hw''
      exact hr' (howner'.symm.trans hroot)
  · rintro r' ⟨w'', hw'', howner', -⟩
    have hw : w'' = w := Option.some.inj (hw''.symm.trans hg)
    rw [hw, hroot] at howner'
    exact ⟨g', hne, howner' ▸ howned⟩

end FocusForest

end Yaade.Library

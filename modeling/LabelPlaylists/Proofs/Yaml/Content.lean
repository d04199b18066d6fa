import LabelPlaylists.Proofs.Result
import LabelPlaylists.Yaml.Content

namespace LabelPlaylists.Yaml

variable {α β : Type} {n : Nat} {v : Value} {t : Thing}

namespace Value

-- A value that is no collection.
def isSimple : Value → Bool
  | .sequence _ | .mapping _ | .set _ | .pairs _ | .enclosing => false
  | _ => true

theorem isSimple_of_map {x : Except Fault α} {f : α → Value} (hf : ∀ a, (f a).isSimple) (h : x.map f = .ok v) :
    v.isSimple := by
  cases x <;> cases h
  exact hf _

theorem isSimple_of_ofTime {parts : TimeParts} (h : ofTime parts = .ok v) : v.isSimple := by
  unfold ofTime at h
  dsimp only at h
  (repeat' split at h) <;> cases h <;> rfl

theorem isSimple_of_ofScalar {tag : Tag} {s : String} (h : ofScalar tag s = .ok v) : v.isSimple := by
  unfold ofScalar at h
  split at h
  case h_1 | h_7 => cases h; rfl
  case h_2 | h_3 | h_4 | h_5 => exact isSimple_of_map (fun _ => rfl) h
  case h_6 =>
    split at h
    case h_1 => exact isSimple_of_ofTime h
    case h_2 => cases h
  case h_8 => cases h

end Value

namespace Content

theorem isSimple_of_scalarOf {nodes : Nodes} {tag : Tag} (h : scalarOf nodes n tag = .ok v) : v.isSimple := by
  have ⟨_, _, h⟩ := bind_eq_ok_iff.mp h
  split at h
  case h_1 => cases h
  case h_2 => exact Value.isSimple_of_ofScalar h

-- Scalars are noted with values that are no collections.
def AreSimple (things : Array (Option Thing)) : Prop :=
  ∀ (n : Nat) (v : Value), things[n]? = some (some (Thing.scalar v)) → v.isSimple

-- A part of the building that keeps to this.
def Keeps (x : Build α) : Prop := ∀ b a b', x b = .ok (a, b') → AreSimple b.things → AreSimple b'.things

namespace Keeps

variable {x : Build α} {f : α → Build β}

theorem bindOk (hx : Keeps x) (hf : ∀ b a b', x b = .ok (a, b') → Keeps (f a)) : Keeps (x >>= f) := by
  intro b c b' h hb
  have ⟨⟨a, b₁⟩, h₁, h₂⟩ := bind_eq_ok_iff.mp h
  exact hf _ _ _ h₁ _ _ _ h₂ (hx _ _ _ h₁ hb)

theorem bind (hx : Keeps x) (hf : ∀ a, Keeps (f a)) : Keeps (x >>= f) := hx.bindOk fun _ a _ _ => hf a

theorem pure (a : α) : Keeps (pure a : Build α) := by
  intro b _ b' h hb
  cases h
  exact hb

theorem throw (e : Fault) : Keeps (throw e : Build α) := nofun

theorem get : Keeps (get : Build Building) := by
  intro b _ b' h hb
  cases h
  exact hb

theorem mapM (hf : ∀ a, Keeps (f a)) (items : List α) : Keeps (items.mapM f) := by
  induction items
  case nil => exact .pure _
  case cons a rest hi =>
    rw [List.mapM_cons]
    exact (hf a).bind fun _ => hi.bind fun _ => .pure _

-- Whatever is changed apart from the things.
theorem modify {g : Building → Building} (hg : ∀ b, (g b).things = b.things) :
    Keeps (modify g : Build Unit) := by
  intro b _ b' h hb
  cases h
  exact hg b ▸ hb

theorem put (ht : ∀ v, t = .scalar v → v.isSimple) : Keeps (put n t) := by
  intro b _ b' h hb
  cases h
  show AreSimple (b.things.setIfInBounds n (some t))
  intro m v hm
  rw [Array.getElem?_setIfInBounds] at hm
  split at hm
  case isFalse => exact hb m v hm
  case isTrue =>
    split at hm
    case isTrue  => exact ht v (Option.some.inj (Option.some.inj hm))
    case isFalse => cases hm

end Keeps

theorem not_scalar_of_unfilled? {tag : Tag} (h : unfilled? tag = some t) (v : Value) : t ≠ .scalar v := by
  cases tag <;> cases h <;> nofun

theorem scalar_eq_ok {x : Except Fault Value} {b b' : Building}
    (h : (Thing.scalar <$> (liftM x : Build Value)) b = .ok (t, b')) : (∃ v, x = .ok v ∧ t = .scalar v) ∧ b' = b := by
  cases x <;> cases h
  exact ⟨⟨_, rfl, rfl⟩, rfl⟩

theorem keeps_make (n : Nat) : Keeps (make n) := by
  unfold make
  refine .bind .get fun b => ?_
  split
  case h_1 => exact .pure _
  case h_2 => exact .throw _
  case h_3 =>
    split
    case h_1 t ht =>
      refine .bind (.put fun v h => absurd h (not_scalar_of_unfilled? ht v)) fun _ => ?_
      exact .bind (.modify fun _ => rfl) fun _ => .pure _
    case h_2 =>
      have hp {t : Thing} (ht : ∀ v, t = .scalar v → v.isSimple) : Keeps (do put n t; pure t : Build Thing) :=
        .bind (.put ht) fun _ => .pure _
      split
      case isFalse => exact .bindOk (.throw _) fun _ _ _ h => nomatch h
      case isTrue  =>
        refine .bindOk (fun _ _ _ h hb => (scalar_eq_ok h).right ▸ hb) fun _ t _ h => hp fun v hv => ?_
        have ⟨w, hw, ht⟩ := (scalar_eq_ok h).left
        cases ht.symm.trans hv
        exact isSimple_of_scalarOf hw

theorem keeps_keyed (found : List (Value × Nat)) (entries : List (Nat × Nat)) : Keeps (keyed found entries) := by
  induction entries generalizing found
  case nil => exact .pure _
  case cons e rest hi =>
    refine .bind (keeps_make _) fun t => ?_
    split
    case h_1 => exact .bind (keeps_make _) fun _ => hi _
    case h_2 => exact .throw _

theorem entriesOf_eq (n : Nat) (b : Building) :
    entriesOf n b = (Nodes.flatten n).run b.nodes >>= fun r => keyed [] r.1 { b with nodes := r.2 } := by
  unfold entriesOf
  show (liftM ((Nodes.flatten n).run b.nodes) : Build _) b >>= _ = _
  cases (Nodes.flatten n).run b.nodes <;> rfl

theorem keeps_entriesOf (n : Nat) : Keeps (entriesOf n) := by
  intro b entries b' h hb
  have ⟨_, _, h⟩ := bind_eq_ok_iff.mp (entriesOf_eq n b ▸ h)
  exact keeps_keyed _ _ _ _ _ h hb

theorem keeps_pairOf (n : Nat) : Keeps (pairOf n) := by
  refine .bind .get fun b => ?_
  split
  case h_1 => exact .bind (keeps_make _) fun _ => .bind (keeps_make _) fun _ => .pure _
  case h_2 => exact .throw _

theorem keeps_fill (n : Nat) : Keeps (fill n) := by
  refine .bind .get fun b => ?_
  split
  case h_1 => exact .bind (.mapM keeps_make _) fun _ => .put nofun
  case h_2 => exact .bind (keeps_entriesOf _) fun _ => .put nofun
  case h_3 => exact .bind (keeps_entriesOf _) fun _ => .put nofun
  case h_4 =>
    split
    case isTrue  => exact .bind (.mapM keeps_pairOf _) fun _ => .put nofun
    case isFalse => exact .throw _
  case h_5 => exact .throw _

theorem keeps_fillFrom (fuel place : Nat) : Keeps (fillFrom fuel place) := by
  induction fuel generalizing place
  case zero => exact .pure _
  case succ fuel hi =>
    refine .bind .get fun b => ?_
    split
    case h_1 => exact .pure _
    case h_2 => exact .bind (keeps_fill _) fun _ => hi _

-- The scalars of a document have values that are no collections.
theorem isSimple_of_thing {s : String} {c : Content} (hc : ofText s = .ok c) (h : c.thing n = .scalar v) :
    v.isSimple := by
  have ⟨d, _, hd⟩ := bind_eq_ok_iff.mp hc
  have ⟨⟨_, b⟩, hb, hd⟩ := bind_eq_ok_iff.mp hd
  cases hd
  have hk : AreSimple b.things := by
    refine Keeps.bind (keeps_make d.root) (fun _ => keeps_fillFrom _ _) _ _ _ hb fun m v hm => ?_
    simp [Array.getElem?_replicate] at hm
  unfold thing at h
  dsimp only at h
  rcases ht : b.things[n]? with _ | _ | t <;> rw [ht] at h
  case some.some => exact hk n v (ht.trans (congrArg _ (congrArg _ h)))
  all_goals cases h; rfl

-- The node under a key of a node that is a mapping.
def entry? (c : Content) (n : Nat) (name : String) : Option Nat :=
  match c.thing n with
  | .mapping entries => (entries.find? (·.1.sameKey (.text name))).map (·.2)
  | _ => none

end Content

end LabelPlaylists.Yaml

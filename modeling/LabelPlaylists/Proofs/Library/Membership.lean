import LabelPlaylists.Proofs.Library.Undone

namespace LabelPlaylists.Library

-- An operation that was performed, with the tables before it and whether it ended well.
structure Entry where
  before    : Tables
  command   : Command
  succeeded : Bool

namespace Entry

-- What an operation that ends well says about a track and a label: that the track carries the label
-- from now on, or that it does not.
def word? (e : Entry) (trackId labelId : Int) : Option Bool :=
  match e.command with
  | .addMembership track label =>
    if e.succeeded ∧ track.whole? = some trackId ∧ label.whole? = some labelId then some true else none
  | .removeMembership track label =>
    if e.succeeded ∧ track.whole? = some trackId ∧ label.whole? = some labelId then some false else none
  | _ => none

-- A label starts anew when it is given criteria, and when those that it has are taken from it. For a
-- label without criteria the latter came last, but for criteria that are not a number: they are stored
-- as none.
def Restarts (e : Entry) (labelId : Int) : Prop :=
  match e.command with
  | .setCriteria label criteria =>
    e.succeeded ∧ label.whole? = some labelId ∧
      (criteria ≠ .null ∨ ∃ l ∈ e.before.labels, l.id = labelId ∧ l.criteria ≠ none)
  | _ => False

instance (e : Entry) (labelId : Int) : Decidable (e.Restarts labelId) := by
  unfold Restarts
  split <;> infer_instance

end Entry

-- The last word on a track and a label since the label has started anew. The last operation of a log
-- comes first.
def lastWord? (log : List Entry) (trackId labelId : Int) : Option Bool :=
  (log.takeWhile fun e => ¬e.Restarts labelId).findSome? (·.word? trackId labelId)

theorem lastWord?_cons {e : Entry} {log : List Entry} {k l : Int} :
    lastWord? (e :: log) k l
      = if e.Restarts l then none else (e.word? k l).or (lastWord? log k l) := by
  by_cases h : e.Restarts l <;> simp only [lastWord?, List.takeWhile_cons, h]
  case pos => rfl
  case neg => cases hw : e.word? k l <;> simp [hw]

-- A store with the log of the operations that have led to it.
inductive Logged : List Entry → Store → Prop
  | create {path} : Logged [] (.create path)
  | perform {log s now c} :
    Logged log s →
    Logged (⟨s.tables, c, (s.perform now c).1.isOk⟩ :: log) (s.perform now c).2
  | reconnect {log s} : Logged log s → Logged log s.reconnect

-- The log after events, the first one first, on top of what has been logged before them.
def Store.log (s : Store) (earlier : List Entry) : List Store.Event → List Entry
  | []                       => earlier
  | .perform now c :: events =>
    (s.perform now c).2.log (⟨s.tables, c, (s.perform now c).1.isOk⟩ :: earlier) events
  | .reconnect :: events     => s.reconnect.log earlier events

theorem Logged.after {earlier : List Entry} {s : Store} (h : Logged earlier s) (events : List Store.Event) :
    Logged (s.log earlier events) (s.after events) := by
  induction events generalizing s earlier
  case nil => exact h
  case cons e rest hi =>
    cases e
    case perform   => exact hi h.perform
    case reconnect => exact hi h.reconnect

-- No label with criteria has tracks of its own.
def Tables.Exclusive (t : Tables) : Prop :=
  ∀ m ∈ t.memberships, ∀ l ∈ t.labels, l.id = m.labelId → l.criteria = none

-- The tables that an operation leads to: a track carries a label if the operation says so, and if it
-- says nothing then as before.
structure Entry.Leads (e : Entry) (t : Tables) : Prop where
  exclusive : t.Exclusive
  carries   : ∀ k l, ⟨k, l⟩ ∈ t.memberships ↔
    ¬e.Restarts l ∧ (e.word? k l).getD (decide (⟨k, l⟩ ∈ e.before.memberships))

namespace Tables

variable {t t' : Tables} {n : Nat}

-- Nothing happens to a label that is not there.
theorem setCriteria_fst {d w : Datum} :
    (t.setCriteria d w).1 = { t with
      labels := t.labels.map fun l =>
        if d.whole? = some l.id then { l with criteria := w.text? } else l } := by
  unfold setCriteria
  split
  case h_1 hn =>
    suffices h : ∀ l ∈ t.labels, d.whole? ≠ some l.id by
      rw [List.map_congr_left fun l hl => if_neg (h l hl), List.map_id']
    intro l hl hd
    rw [hd, Option.bind_some, label?, List.find?_eq_none] at hn
    exact hn l hl (by simp)
  case h_2 old ho =>
    obtain ⟨k, hd, hk⟩ := Option.bind_eq_some_iff.mp ho
    have hi : old.id = k := by simpa using List.find?_some hk
    simp [hd, hi, @eq_comm _ k]

theorem mem_clearLabel {d : Datum} {m : Membership} :
    m ∈ (t.clearLabel d).1.memberships ↔ m ∈ t.memberships ∧ d.whole? ≠ some m.labelId := by
  unfold clearLabel
  split
  case h_1 hd => simp [hd]
  case h_2 k hd => simp [hd, @eq_comm _ k]

theorem labels_clearLabel {d : Datum} : (t.clearLabel d).1.labels = t.labels := by
  unfold clearLabel
  split <;> rfl

theorem mem_addMembership {r : Datum} {k : Int} (e : t.addMembership r k = .ok (t', n)) :
    t'.labels = t.labels ∧
      ∀ m, m ∈ t'.memberships ↔ m ∈ t.memberships ∨ r.whole? = some m.trackId ∧ m.labelId = k := by
  unfold addMembership at e
  split at e
  case isTrue hr => cases e; simp [hr, Datum.whole?]
  case isFalse =>
    split at e
    case h_1 => cases e
    case h_2 trackId hr =>
      split at e
      case isTrue hm =>
        cases e
        refine ⟨rfl, fun m => ⟨.inl, fun h => h.elim id fun h => ?_⟩⟩
        cases m
        cases h.right
        cases hr.symm.trans h.left
        exact List.contains_iff_mem.mp hm
      case isFalse =>
        split at e <;> cases e
        refine ⟨rfl, fun m => ?_⟩
        cases m
        simp only [List.mem_append, List.mem_singleton, hr, Option.some.injEq, Membership.mk.injEq,
          @eq_comm _ trackId]

theorem mem_removeMembership {r : Datum} {k : Int} :
    (t.removeMembership r k).1.labels = t.labels ∧
      ∀ m, m ∈ (t.removeMembership r k).1.memberships ↔
        m ∈ t.memberships ∧ ¬(r.whole? = some m.trackId ∧ m.labelId = k) := by
  unfold removeMembership
  split
  case h_1 hr => simp [hr]
  case h_2 trackId hr =>
    refine ⟨rfl, fun m => ?_⟩
    cases m
    simp [hr, @eq_comm _ trackId, imp_iff_not_or]

end Tables

namespace Entry.Leads

variable {t t' : Tables} {c : Command} {n : Nat}

theorem of_same {e : Entry} (h : e.before.Exclusive) (hw : ∀ k l, e.word? k l = none)
    (hr : ∀ l, ¬e.Restarts l) (hl : t.labels = e.before.labels)
    (hm : t.memberships = e.before.memberships) : e.Leads t where
  exclusive   := by
    unfold Tables.Exclusive
    rw [hl, hm]
    exact h
  carries k l := by simp [hw, hr, hm]

-- An operation that fails says nothing.
theorem of_failed (h : t.Exclusive) (hl : t'.labels = t.labels)
    (hm : t'.memberships = t.memberships) : Leads ⟨t, c, false⟩ t' := by
  refine of_same h (fun k l => ?_) (fun l => ?_) hl hm
  case refine_1 => cases c <;> simp [word?]
  case refine_2 => cases c <;> simp [Restarts]

-- A new label has no tracks, since its number is new.
theorem of_addLabel {u v w : Datum} {b : Bool} (hs : t.Sound) (h : t.Exclusive)
    (e : t.addLabel u v w now = .ok (t', n)) : Leads ⟨t, .addLabel u v w, b⟩ t' := by
  cases Command.Effect.of_addLabel e
  case nothing => exact of_same h (fun _ _ => rfl) (fun _ => id) rfl rfl
  case label =>
    refine ⟨fun m hm l hl he => ?_, fun k l => ?_⟩
    case refine_1 =>
      rcases List.mem_append.mp hl with hl | hl
      case inl => exact h m hm l hl he
      case inr =>
        rw [List.mem_singleton.mp hl] at he
        have hn := Tables.Sound.succ_notMem hs.labelNumbers
        exact absurd (hs.memberLabels (List.mem_map_of_mem hm)) (he ▸ hn)
    case refine_2 => simp [word?, Restarts]

theorem of_setCriteria {d w : Datum} (h : t.Exclusive)
    (hl : t'.labels = t.labels.map fun l =>
      if d.whole? = some l.id then { l with criteria := w.text? } else l)
    (hm : ∀ m, m ∈ t'.memberships ↔ m ∈ t.memberships ∧ (w ≠ .null → d.whole? ≠ some m.labelId)) :
    Leads ⟨t, .setCriteria d w, true⟩ t' := by
  refine ⟨fun m hm' l' hl' he => ?_, fun k l => ?_⟩
  case refine_1 =>
    have ⟨hm, hn⟩ := (hm m).mp hm'
    rw [hl] at hl'
    obtain ⟨l, hl, rfl⟩ := List.mem_map.mp hl'
    by_cases hd : d.whole? = some l.id <;> simp only [hd, if_true, if_false] at he ⊢
    case neg => exact h m hm l hl he
    case pos =>
      by_cases hw : w = .null
      case pos => rw [hw]; rfl
      case neg => exact absurd (he ▸ hd) (hn hw)
  case refine_2 =>
    rw [hm]
    simp only [Restarts, word?, Option.getD_none, decide_eq_true_eq, true_and]
    refine ⟨fun ⟨hm, hn⟩ => ⟨fun ⟨hd, hr⟩ => ?_, hm⟩, fun ⟨hr, hm⟩ => ⟨hm, fun hw hd => ?_⟩⟩
    case refine_1 =>
      rcases hr with hw | ⟨l', hl', he, hc⟩
      case inl => exact hn hw hd
      case inr => exact hc (h _ hm l' hl' he)
    case refine_2 => exact hr ⟨hd, .inl hw⟩

theorem of_addMembership {r d : Datum} {l : Label} (hs : t.Sound) (h : t.Exclusive)
    (hl : d.whole?.bind t.label? = some l) (hc : l.criteria = none)
    (e : t.addMembership r l.id = .ok (t', n)) : Leads ⟨t, .addMembership r d, true⟩ t' := by
  obtain ⟨k, hd, hl⟩ := Option.bind_eq_some_iff.mp hl
  obtain ⟨hm, rfl⟩ := (Tables.label?_eq_some_iff hs).mp hl
  have ⟨hls, hms⟩ := Tables.mem_addMembership e
  refine ⟨fun m hm' l' hl' he => ?_, fun k l' => ?_⟩
  case refine_1 =>
    rcases (hms m).mp hm' with hm' | ⟨_, hi⟩
    case inl => exact h m hm' l' (hls ▸ hl') he
    -- No other label has the number.
    case inr => exact List.inj_on_of_nodup_map hs.labels (hls ▸ hl') hm (he.trans hi) ▸ hc
  case refine_2 =>
    rw [hms]
    by_cases hr : r.whole? = some k ∧ l' = l.id
    case pos => simp [word?, Restarts, hd, hr]
    case neg =>
      have hn : ¬(r.whole? = some k ∧ l.id = l') := fun ⟨hk, hi⟩ => hr ⟨hk, hi.symm⟩
      simp [word?, Restarts, hd, hr, hn]

theorem of_removeMembership {r d : Datum} {l : Label} (hs : t.Sound) (h : t.Exclusive)
    (hl : d.whole?.bind t.label? = some l) :
    Leads ⟨t, .removeMembership r d, true⟩ (t.removeMembership r l.id).1 := by
  obtain ⟨k, hd, hl⟩ := Option.bind_eq_some_iff.mp hl
  obtain ⟨-, rfl⟩ := (Tables.label?_eq_some_iff hs).mp hl
  have ⟨hls, hms⟩ := Tables.mem_removeMembership (t := t) (r := r) (k := l.id)
  refine ⟨fun m hm l' hl' he => ?_, fun k l' => ?_⟩
  case refine_1 => exact h m ((hms m).mp hm).left l' (hls ▸ hl') he
  case refine_2 =>
    rw [hms]
    by_cases hr : r.whole? = some k ∧ l' = l.id
    case pos => simp [word?, Restarts, hd, hr]
    case neg =>
      have hn : ¬(r.whole? = some k ∧ l.id = l') := fun ⟨hk, hi⟩ => hr ⟨hk, hi.symm⟩
      simp [word?, Restarts, hd, hr, hn]

end Entry.Leads

theorem Work.Still.inv {w : Work α} {s s' : Store} {r : Except Failure α} (hw : Still w)
    (h : w s = (r, s')) : s' = s := by
  rw [← hw s, h]

theorem Work.changeSurely_inv {f : Tables → Tables × Nat} {s s' : Store} {n : Nat}
    (h : change (fun t => .ok (f t)) s = (.ok n, s')) :
    s' = { s with tables := (f s.tables).1, changes := s.changes + n } := by
  obtain ⟨t, ht, rfl⟩ := change_inv h
  rw [Except.ok.inj ht]

-- An operation on labels or on the tracks that carry them.
def Command.IsLabeling : Command → Prop
  | .addLabel .. | .setCriteria .. | .addMembership .. | .removeMembership .. => True
  | _ => False

theorem Command.IsLabeling.writes {c : Command} (h : c.IsLabeling) : c.Writes := by
  cases c <;> trivial

namespace Store

-- No label with criteria has tracks, and nothing about labels is left to be made permanent.
structure Exclusive (s : Store) : Prop where
  tables      : s.tables.Exclusive
  labels      : s.saved.labels = s.tables.labels
  memberships : s.saved.memberships = s.tables.memberships

variable {s s' : Store} {now : Moment} {c : Command}

theorem staticLabel_inv {id : Datum} {k : Int} (h : staticLabel id s = (.ok k, s')) :
    s' = s ∧ ∃ l, id.whole?.bind s.tables.label? = some l ∧ l.criteria = none ∧ k = l.id := by
  have hs := (still_staticLabel id).inv h
  have ⟨_, s₁, hb, h⟩ := Work.bind_inv h
  have ⟨t, s₂, ht, h⟩ := Work.bind_inv h
  obtain rfl := (Work.bound_inv hb).left
  cases ht
  refine ⟨hs, ?_⟩
  cases hl : id.whole?.bind s₁.tables.label? <;> simp only [hl] at h
  case none => cases h
  case some l =>
    split at h
    case isTrue     => cases h
    case isFalse hc => cases h; exact ⟨l, rfl, by simpa using hc, rfl⟩

-- Where an operation that ends well leads to.

theorem leads_addLabel {u v w : Datum} {a : Int} (hs : s.Sound) (hx : s.tables.Exclusive)
    (h : work now (.addLabel u v w) s = (.ok a, s')) :
    Entry.Leads ⟨s.tables, .addLabel u v w, true⟩ s'.tables := by
  have ⟨_, s₁, hn, h⟩ := Work.bind_inv h
  have ⟨_, s₂, hb, h⟩ := Work.bind_inv h
  have ⟨_, s₃, hc, h⟩ := Work.bind_inv h
  obtain rfl := (Work.Still.stamp now).inv hn
  obtain rfl := (Work.bound_inv hb).left
  obtain ⟨t, ht, rfl⟩ := Work.change_inv hc
  cases h
  exact .of_addLabel hs.tables hx ht

theorem leads_setCriteria {d w : Datum} {a : Unit} (hx : s.tables.Exclusive)
    (h : work now (.setCriteria d w) s = (.ok a, s')) :
    Entry.Leads ⟨s.tables, .setCriteria d w, true⟩ s'.tables := by
  have ⟨_, s₁, hb, h⟩ := Work.bind_inv h
  have ⟨_, s₂, hc, h⟩ := Work.bind_inv h
  obtain rfl := (Work.bound_inv hb).left
  obtain rfl := Work.changeSurely_inv hc
  split at h
  case isTrue hw =>
    have ⟨_, s₃, hd, h⟩ := Work.bind_inv h
    obtain rfl := Work.changeSurely_inv hd
    cases h
    refine .of_setCriteria hx (Tables.labels_clearLabel.trans ?_) fun m => Tables.mem_clearLabel.trans ?_
    case refine_1 => rw [Tables.setCriteria_fst]
    case refine_2 => simp [Tables.setCriteria_fst, hw]
  case isFalse hw =>
    cases h
    refine .of_setCriteria hx ?_ fun m => ?_
    case refine_1 => rw [Tables.setCriteria_fst]
    case refine_2 => simp [Tables.setCriteria_fst, not_not.mp hw]

theorem leads_addMembership {r d : Datum} {a : Unit} (hs : s.Sound) (hx : s.tables.Exclusive)
    (h : work now (.addMembership r d) s = (.ok a, s')) :
    Entry.Leads ⟨s.tables, .addMembership r d, true⟩ s'.tables := by
  have ⟨_, s₁, hl, h⟩ := Work.bind_inv h
  have ⟨_, s₂, hb, h⟩ := Work.bind_inv h
  have ⟨_, s₃, hc, h⟩ := Work.bind_inv h
  obtain ⟨rfl, l, hf, hn, rfl⟩ := staticLabel_inv hl
  obtain rfl := (Work.bound_inv hb).left
  obtain ⟨t, ht, rfl⟩ := Work.change_inv hc
  cases h
  exact .of_addMembership hs.tables hx hf hn ht

theorem leads_removeMembership {r d : Datum} {a : Unit} (hs : s.Sound) (hx : s.tables.Exclusive)
    (h : work now (.removeMembership r d) s = (.ok a, s')) :
    Entry.Leads ⟨s.tables, .removeMembership r d, true⟩ s'.tables := by
  have ⟨_, s₁, hl, h⟩ := Work.bind_inv h
  have ⟨_, s₂, hb, h⟩ := Work.bind_inv h
  have ⟨_, s₃, hc, h⟩ := Work.bind_inv h
  obtain ⟨rfl, l, hf, -, rfl⟩ := staticLabel_inv hl
  obtain rfl := (Work.bound_inv hb).left
  obtain rfl := Work.changeSurely_inv hc
  cases h
  exact .of_removeMembership hs.tables hx hf

-- An operation that is not about labels leaves them and their tracks alone.
theorem perform_labels (now : Moment) (hc : ¬c.IsLabeling) (h : s.Exclusive) :
    let s' := (s.perform now c).2
    (s'.tables.labels = s.tables.labels ∧ s'.tables.memberships = s.tables.memberships) ∧
      s'.saved.labels = s.tables.labels ∧ s'.saved.memberships = s.tables.memberships := by
  refine perform_keeps (I := fun t => t.labels = s.tables.labels ∧ t.memberships = s.tables.memberships)
    (fun e => ?_) ⟨rfl, rfl⟩ ⟨h.labels, h.memberships⟩
  cases e.effect <;> first | exact id | exact absurd trivial hc

-- An operation on labels that fails does so before it has changed anything, or it is taken back.
theorem perform_labels_error {e : Failure} (hc : c.IsLabeling) (h : s.Exclusive)
    (he : s.perform now c = (.error e, s')) :
    (s'.tables.labels = s.tables.labels ∧ s'.tables.memberships = s.tables.memberships) ∧
      s'.saved = s.saved := by
  have ⟨hs, ht⟩ := perform_error_inv he
  refine ⟨?_, hs⟩
  rcases ht with ⟨_, ht⟩ | ⟨_, ht | hl⟩
  case inl     => rw [ht]; exact ⟨h.labels, h.memberships⟩
  case inr.inl => rw [ht]; exact ⟨rfl, rfl⟩
  case inr.inr => cases hl <;> exact absurd hc id

theorem Exclusive.leads (now : Moment) (c : Command) (hs : s.Sound) (h : s.Exclusive) :
    Entry.Leads ⟨s.tables, c, (s.perform now c).1.isOk⟩ (s.perform now c).2.tables ∧
      (s.perform now c).2.saved.labels = (s.perform now c).2.tables.labels ∧
      (s.perform now c).2.saved.memberships = (s.perform now c).2.tables.memberships := by
  by_cases hc : c.IsLabeling
  case neg =>
    have ⟨⟨hl, hm⟩, hl', hm'⟩ := perform_labels now hc h
    refine ⟨.of_same h.tables (fun k l => ?_) (fun l => ?_) hl hm, hl'.trans hl.symm, hm'.trans hm.symm⟩
    case refine_1 => cases c <;> first | rfl | exact absurd trivial hc
    case refine_2 => cases c <;> first | exact id | exact absurd trivial hc
  case pos =>
    rcases hp : s.perform now c with ⟨e | a, s'⟩
    case error =>
      have ⟨⟨hl, hm⟩, hs⟩ := perform_labels_error hc h hp
      refine ⟨.of_failed h.tables hl hm, ?_, ?_⟩
      case refine_1 => rw [hs, hl]; exact h.labels
      case refine_2 => rw [hs, hm]; exact h.memberships
    case ok =>
      have hw := perform_eq_ok_iff.mp hp
      have hv := perform_writes hc.writes hp
      refine ⟨?_, congrArg Tables.labels hv, congrArg Tables.memberships hv⟩
      cases c <;> try exact absurd hc id
      case addLabel         => exact leads_addLabel hs h.tables hw
      case setCriteria      => exact leads_setCriteria h.tables hw
      case addMembership    => exact leads_addMembership hs h.tables hw
      case removeMembership => exact leads_removeMembership hs h.tables hw

end Store

-- What holds of a store and its log.
structure Logged.Invariant (log : List Entry) (s : Store) : Prop where
  sound     : s.Sound
  exclusive : s.Exclusive
  carries   : ∀ k l, ⟨k, l⟩ ∈ s.tables.memberships ↔ lastWord? log k l = some true

theorem Logged.invariant {log : List Entry} {s : Store} (h : Logged log s) : Invariant log s := by
  induction h
  case create =>
    refine ⟨⟨.empty, .empty⟩, ⟨nofun, rfl, rfl⟩, fun k l => ?_⟩
    simp [Store.create, lastWord?]
  case perform log s now c _ hi =>
    have ⟨⟨hx, hc⟩, hl, hm⟩ := hi.exclusive.leads now c hi.sound
    refine ⟨hi.sound.perform, ⟨hx, hl, hm⟩, fun k l => ?_⟩
    rw [hc, lastWord?_cons]
    split
    case isTrue hr  => simp [hr]
    case isFalse hr =>
      cases Entry.word? _ k l
      case none   => simp [hr, hi.carries]
      case some b => simp [hr]
  case reconnect log s _ hi =>
    have hl := hi.exclusive.labels
    have hm := hi.exclusive.memberships
    refine ⟨⟨hi.sound.saved, hi.sound.saved⟩, ⟨?_, rfl, rfl⟩, fun k l => hm ▸ hi.carries k l⟩
    show ∀ m ∈ s.saved.memberships, ∀ l ∈ s.saved.labels, l.id = m.labelId → l.criteria = none
    rw [hl, hm]
    exact hi.exclusive.tables

-- The tracks that a label lists: those of which the last word is that they carry it, each once, the
-- newest favorite first, and of two favored at the same time the one stored later.
structure Store.Lists (s : Store) (log : List Entry) (labelId : Int) (rows : List Track) : Prop where
  stored  : rows ⊆ s.tables.tracks
  once    : (rows.map (·.id)).Nodup
  carries : ∀ k, k ∈ rows.map (·.id) ↔ lastWord? log k labelId = some true
  ordered : rows.Pairwise fun a b => b.addedAt < a.addedAt ∨ a.addedAt = b.addedAt ∧ b.id < a.id

theorem Logged.Invariant.lists {log : List Entry} {s : Store} (h : Invariant log s) (l : Int) :
    s.Lists log l
      (Tables.listed (s.tables.tracks.filter fun r => s.tables.memberships.contains ⟨r.id, l⟩)) := by
  have hn := h.sound.tables.nodup_filter fun r => s.tables.memberships.contains ⟨r.id, l⟩
  refine ⟨fun r hr => ?_, Tables.nodup_listed hn, fun k => ?_, Tables.pairwise_listed hn⟩
  case refine_1 => exact (List.mem_filter.mp (Tables.mem_listed.mp hr)).left
  case refine_2 =>
    rw [← h.carries, List.mem_map]
    constructor
    case mp =>
      rintro ⟨r, hr, rfl⟩
      exact List.contains_iff_mem.mp (List.mem_filter.mp (Tables.mem_listed.mp hr)).right
    case mpr =>
      intro hm
      obtain ⟨r, hr, rfl⟩ := List.mem_map.mp (h.sound.tables.memberTracks (List.mem_map_of_mem hm))
      exact ⟨r, Tables.mem_listed.mpr (List.mem_filter.mpr ⟨hr, List.contains_iff_mem.mpr hm⟩), rfl⟩

-- Whatever operations have been performed, no label with criteria has tracks of its own, and a label
-- lists the tracks of which the last word is that they carry it.
theorem Logged.labelTracks {log : List Entry} {s : Store} (h : Logged log s) :
    s.tables.Exclusive ∧ s.saved.Exclusive ∧
      ∀ label l now, Accepts label → label.whole? = some l →
        ∃ rows, (s.perform now (.labelTracks label)).1 = .ok (rows.map (·.spotifyId)) ∧
          s.Lists log l rows := by
  have hi := h.invariant
  refine ⟨hi.exclusive.tables, h.reconnect.invariant.exclusive.tables, fun label l now ha hl => ?_⟩
  refine ⟨_, ?_, hi.lists l⟩
  have hp : s.perform now (.labelTracks label) = (.ok (s.tables.labelTracks label), s) :=
    Store.perform_ok <| Work.bind_ok <| Work.bound_ok (by simpa using ha) s
  rw [hp, Tables.labelTracks, hl]

namespace Store.Sample

-- A label is given criteria and loses its track, which it does not get back while it has them. Then the
-- criteria are taken from it, and it gets another track.
def labeling : List Event := [
  .perform noon (.putUser ⟨.text "alice", .null, .text "token", .text "refresh"⟩ noon),
  .perform noon (.addAlbums [⟨.text "album", .text "Album", .null, .null⟩]),
  .perform noon (.addTrack (.integer 1)
    ⟨.text "first", .text "First", .text "album", .text "2024-01-01", false⟩ []),
  .perform noon (.addTrack (.integer 1)
    ⟨.text "second", .text "Second", .text "album", .text "2024-01-02", false⟩ []),
  .perform noon (.addLabel (.integer 1) (.text "label") .null),
  .perform noon (.addMembership (.integer 1) (.integer 1)),
  .perform noon (.setCriteria (.integer 1) (.text "explicit")),
  .perform noon (.addMembership (.integer 1) (.integer 1)),
  .perform noon (.setCriteria (.integer 1) .null),
  .perform noon (.addMembership (.integer 2) (.text "1")),
  .reconnect
]

end Store.Sample

open Store.Sample in
theorem Logged.labelTracks_labeling :
    let s := (Store.create "library").after labeling
    let log := (Store.create "library").log [] labeling
    Logged log s ∧ Accepts (.integer 1) ∧ Datum.whole? (.integer 1) = some 1 ∧
      (∃ rows, (s.perform noon (.labelTracks (.integer 1))).1 = .ok (rows.map (·.spotifyId)) ∧
        s.Lists log 1 rows) ∧
      (s.perform noon (.labelTracks (.integer 1))).1 = .ok ["second"] ∧
      lastWord? log 1 1 = none ∧ lastWord? log 2 1 = some true := by
  intro s log
  have h : Logged log s := Logged.create.after _
  have ha : Accepts (.integer 1) := accepts_integer.mpr (by decide)
  refine ⟨h, ha, rfl, h.labelTracks.right.right _ _ _ ha rfl, ?_, ?_, ?_⟩
  all_goals decide +kernel

end LabelPlaylists.Library

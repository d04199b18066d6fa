import LabelPlaylists.Proofs.Library.Answer
import LabelPlaylists.Proofs.Library.Listing
import LabelPlaylists.Proofs.Library.Search
import LabelPlaylists.Proofs.Library.Undone

namespace LabelPlaylists.Library

variable {α β : Type} {time : α → String} {items : List α}

-- Items from the newest on; items of the same time keep their order.
def newestFirst (time : α → String) (items : List α) : List α :=
  items.mergeSort fun a b => !(time a < time b)

-- Sorting keeps the order of those elements that may stand in any order.
theorem filter_mergeSort {le : α → α → Bool} {p : α → Bool} (htrans : ∀ a b c, le a b → le b c → le a c)
    (htotal : ∀ a b, le a b || le b a) (h : ∀ a b, p a → p b → le a b) :
    (items.mergeSort le).filter p = items.filter p := by
  have hs : (items.filter p).Pairwise fun a b => le a b :=
    List.pairwise_of_forall_mem_list fun a ha b hb => h a b (List.of_mem_filter ha) (List.of_mem_filter hb)
  have hs := (List.sublist_mergeSort htrans htotal hs List.filter_sublist).filter p
  rw [List.filter_filter, List.filter_congr fun a _ => Bool.and_self (p a)] at hs
  exact (hs.eq_of_length (((List.mergeSort_perm items le).filter p).length_eq.symm)).symm

theorem newestFirst_trans (a b c : α) (hab : !(time a < time b)) (hbc : !(time b < time c)) :
    !(time a < time c) := by
  simp only [Bool.not_eq_eq_eq_not, Bool.not_true, decide_eq_false_iff_not] at *
  exact String.le_trans hbc hab

theorem newestFirst_total (a b : α) : !(time a < time b) || !(time b < time a) := by
  simp only [Bool.or_eq_true, Bool.not_eq_eq_eq_not, Bool.not_true, decide_eq_false_iff_not]
  exact String.le_total (time b) (time a)

theorem newestFirst_perm : (newestFirst time items).Perm items :=
  List.mergeSort_perm _ _

theorem pairwise_newestFirst : (newestFirst time items).Pairwise fun a b => ¬time a < time b :=
  (List.pairwise_mergeSort newestFirst_trans newestFirst_total items).imp (by simp)

theorem filter_newestFirst {c : String} :
    (newestFirst time items).filter (time · = c) = items.filter (time · = c) :=
  filter_mergeSort newestFirst_trans newestFirst_total fun a b ha hb => by simp_all

theorem map_newestFirst {time' : β → String} {f : α → β} (h : ∀ a ∈ items, time' (f a) = time a) :
    (newestFirst time items).map f = newestFirst time' (items.map f) :=
  List.map_mergeSort fun a ha b hb => by rw [h a ha, h b hb]

theorem mem_iff_of_filter_eq {others : List α}
    (h : ∀ c, items.filter (time · = c) = others.filter (time · = c)) {a : α} : a ∈ items ↔ a ∈ others := by
  have := congrArg (a ∈ ·) (h (time a))
  simpa using this

-- What is sorted by time is known by the items of each time.
theorem eq_of_filter_eq {others : List α} (h₁ : items.Pairwise fun a b => ¬time a < time b)
    (h₂ : others.Pairwise fun a b => ¬time a < time b)
    (h : ∀ c, items.filter (time · = c) = others.filter (time · = c)) : items = others := by
  induction items generalizing others
  case nil =>
    exact (List.eq_nil_iff_forall_not_mem.mpr fun a ha => nomatch (mem_iff_of_filter_eq h).mpr ha).symm
  case cons a rest hi =>
    cases others
    case nil => exact nomatch (mem_iff_of_filter_eq h).mp List.mem_cons_self
    case cons b others =>
      have ⟨ha, hr⟩ := List.pairwise_cons.mp h₁
      have ⟨hb, ho⟩ := List.pairwise_cons.mp h₂
      -- Neither of the first ones is older than the other.
      have he : time a = time b := by
        have hab := List.mem_cons.mp ((mem_iff_of_filter_eq h).mp List.mem_cons_self)
        have hba := List.mem_cons.mp ((mem_iff_of_filter_eq h).mpr List.mem_cons_self)
        refine String.le_antisymm ?_ ?_
        case refine_1 => exact hab.elim (fun h => h ▸ String.le_refl _) (hb a)
        case refine_2 => exact hba.elim (fun h => h ▸ String.le_refl _) (ha b)
      have hab := h (time a)
      rw [List.filter_cons_of_pos (by simp), List.filter_cons_of_pos (by simp [he])] at hab
      obtain rfl := (List.cons.inj hab).left
      refine congrArg _ (hi hr ho fun c => ?_)
      have hc := h c
      simp only [List.filter_cons] at hc
      split at hc
      case isTrue  => exact (List.cons.inj hc).right
      case isFalse => exact hc

theorem newestFirst_eq_iff {others : List α} :
    newestFirst time items = newestFirst time others ↔
      ∀ c, items.filter (time · = c) = others.filter (time · = c) := by
  constructor
  case mp  => exact fun h c => by rw [← filter_newestFirst, h, filter_newestFirst]
  case mpr =>
    intro h
    refine eq_of_filter_eq pairwise_newestFirst pairwise_newestFirst fun c => ?_
    rw [filter_newestFirst, filter_newestFirst, h]

theorem length_le_one_of_reverse_eq (hn : items.Nodup) (h : items.reverse = items) : items.length ≤ 1 := by
  cases items
  case nil => exact Nat.zero_le 1
  case cons a rest =>
    cases hr : rest.reverse
    case nil => simp [List.reverse_eq_nil_iff.mp hr]
    case cons b others =>
      -- The first one would stand at the end as well.
      rw [List.reverse_cons, hr] at h
      have hb : b ∈ rest := List.mem_reverse.mp (hr ▸ List.mem_cons_self)
      rw [(List.cons.inj h).left] at hb
      exact absurd hb (List.nodup_cons.mp hn).left

-- What has been turned round comes back to its order if it is sorted by times that differ.
theorem newestFirst_reverse_eq_iff (hn : items.Nodup) :
    newestFirst time items.reverse = items ↔ items.Pairwise fun a b => time b < time a := by
  constructor
  case mp =>
    intro h
    refine List.pairwise_iff_forall_sublist.mpr fun {a b} hab => ?_
    have hs : items.Pairwise fun a b => ¬time a < time b := h ▸ pairwise_newestFirst
    have ho : ¬time a < time b := List.pairwise_iff_forall_sublist.mp hs hab
    by_contra hb
    have he : time a = time b := String.le_antisymm (String.not_lt.mp hb) (String.not_lt.mp ho)
    have hc : items.filter (time · = time a) = items.reverse.filter (time · = time a) :=
      (congrArg _ h.symm).trans filter_newestFirst
    have hl := length_le_one_of_reverse_eq (hn.filter _) (List.filter_reverse.symm.trans hc.symm)
    have hf : [a, b].filter (time · = time a) = [a, b] := by simp [he]
    have hs := hab.filter (time · = time a)
    rw [hf] at hs
    exact absurd (hs.length_le.trans hl) (by simp)
  case mpr =>
    intro h
    refine eq_of_filter_eq pairwise_newestFirst (h.imp fun h => String.lt_asymm h) fun c => ?_
    rw [filter_newestFirst, List.filter_reverse]
    have hc : (items.filter (time · = c)).Pairwise fun a b => time b < time a := h.filter _
    have hm : ∀ a ∈ items.filter (time · = c), time a = c := fun a ha => by simpa using List.of_mem_filter ha
    match items.filter (time · = c), hc, hm with
    | [], _, _      => rfl
    | [_], _, _     => rfl
    | a :: b :: _, hc, hm =>
      have := List.rel_of_pairwise_cons hc List.mem_cons_self
      simp [hm] at this

-- Tracks with rising numbers are listed from the newest on, and those of one time the other way round.
theorem Tables.listed_eq_newestFirst {tracks : List Track} (h : tracks.Pairwise fun a b => a.id < b.id) :
    listed tracks = newestFirst (·.addedAt) tracks.reverse := by
  have hn : (tracks.map (·.id)).Nodup := List.pairwise_map.mpr (h.imp Int.ne_of_lt)
  have ho := pairwise_listed hn
  refine eq_of_filter_eq (ho.imp ?_) pairwise_newestFirst fun c => ?_
  case refine_1 =>
    intro a b hab
    rcases hab with hab | ⟨hab, _⟩
    · exact String.lt_asymm hab
    · rw [hab]; exact String.lt_irrefl _
  case refine_2 =>
    rw [filter_newestFirst, List.filter_reverse]
    have hp : ((listed tracks).filter (·.addedAt = c)).Perm (tracks.filter (·.addedAt = c)).reverse :=
      ((List.mergeSort_perm tracks _).filter _).trans (List.reverse_perm _).symm
    -- Of one time, tracks are listed by falling numbers.
    have hfalling : ((listed tracks).filter (·.addedAt = c)).Pairwise fun a b => b.id < a.id := by
      refine (ho.filter _).imp_of_mem fun {a b} ha hb hab => ?_
      have ha : a.addedAt = c := by simpa using List.of_mem_filter ha
      have hb : b.addedAt = c := by simpa using List.of_mem_filter hb
      rcases hab with hab | ⟨_, hab⟩
      · rw [ha, hb] at hab; exact absurd hab (String.lt_irrefl c)
      · exact hab
    exact hp.eq_of_pairwise (fun a b _ _ h h' => absurd h (Int.lt_asymm h')) hfalling
      (List.pairwise_reverse.mpr (h.filter _))


namespace Tables

variable {t : Tables} {u : Int}

-- All tracks of a user as they are listed.
def viewsOf (t : Tables) (u : Int) : List TrackView := (t.tracksOf (.integer u)).filterMap t.view?

-- A track that is stored has an album, so that it is listed.
theorem map_track_views (hs : t.Sound) {tracks : List Track} (h : tracks ⊆ t.tracks) :
    (tracks.filterMap t.view?).map (·.track) = tracks := by
  induction tracks
  case nil => rfl
  case cons r rest hi =>
    have ⟨hr, hrest⟩ := List.cons_subset.mp h
    have ⟨a, ha⟩ := hs.albumOf hr
    have hv : t.view? r = some _ :=
      Option.map_eq_some_iff.mpr ⟨a, (album?_eq_some_iff hs).mpr ha, rfl⟩
    rw [List.filterMap_cons_some hv, List.map_cons, hi hrest]

theorem map_track_viewsOf (hs : t.Sound) : (t.viewsOf u).map (·.track) = t.tracksOf (.integer u) :=
  map_track_views hs fun _ hr => (List.mem_filter.mp (mem_listed.mp hr)).left

theorem trackPage_eq {limit offset : Int} (h : 0 ≤ limit) :
    t.trackPage (.integer u) (.integer limit) (.integer offset)
      = .ok (((t.viewsOf u).drop offset.toNat).take limit.toNat) := by
  have hl : ¬limit < 0 := by omega
  by_cases hz : limit = 0 <;> simp [trackPage, Datum.whole?, hz, hl, viewsOf]

end Tables

namespace Store

variable {s : Store} {now : Moment} {u : Int}

-- What a question is answered. A value that is not accepted counts before the tables do.
theorem perform_ask_eq {c : Command} {values : List Datum} {f : Tables → Except Fault c.Reply}
    (hw : work now c = do Work.bound values; Work.ask f) :
    (s.perform now c).1 =
      match Work.refusal? 1 values with
      | some e => .error e
      | none   => (f s.tables).mapError .fault := by
  have hb : Work.bound values s
      = match Work.refusal? 1 values with
        | some e => (.error e, s)
        | none   => (.ok (), s) := by
    unfold Work.bound
    split <;> simp_all
  unfold perform
  rw [hw]
  cases hr : Work.refusal? 1 values <;> rw [hr] at hb
  case some e =>
    have hw : (do Work.bound values; Work.ask f) s = (.error e, s) := Work.bind_error hb
    rw [hw]
    cases e <;> rfl
  case none =>
    have hw : (do Work.bound values; Work.ask f) s = Work.ask f s := Work.bind_ok hb
    rw [hw, Work.ask]
    cases f s.tables <;> rfl

theorem perform_find_eq (s : Store) (now : Moment) (user : Datum) (f : Option Sql.Filter) :
    (s.perform now (.find user f)).1 =
      match Work.refusal? 1 (user :: filterValues f) with
      | some e => .error e
      | none   => (s.tables.find user f).mapError .fault :=
  perform_ask_eq (c := .find user f) rfl

-- A question whose values are accepted is answered from the tables.
theorem perform_ask {c : Command} {values : List Datum} {f : Tables → Except Fault c.Reply} {a : c.Reply}
    (hw : work now c = do Work.bound values; Work.ask f) (hv : ∀ v ∈ values, Accepts v)
    (ha : f s.tables = .ok a) : s.perform now c = (.ok a, s) := by
  refine perform_ok ?_
  rw [hw]
  refine (Work.bind_ok (Work.bound_ok hv s)).trans ?_
  rw [Work.ask, ha]

theorem perform_tracks (hu : Datum.IsStorable u) {limit offset : Int} (hl : Datum.IsStorable limit)
    (ho : Datum.IsStorable offset) (h : 0 ≤ limit) :
    s.perform now (.tracks (.integer u) (.integer limit) (.integer offset))
      = (.ok (((s.tables.viewsOf u).drop offset.toNat).take limit.toNat), s) :=
  perform_ask (c := .tracks ..) rfl (by simp [hu, hl, ho]) (Tables.trackPage_eq h)

theorem perform_find_none (hu : Datum.IsStorable u) :
    s.perform now (.find (.integer u) none) = (.ok (s.tables.viewsOf u), s) :=
  perform_ask (c := .find ..) rfl (by simp [hu, filterValues]) rfl

end Store

end LabelPlaylists.Library

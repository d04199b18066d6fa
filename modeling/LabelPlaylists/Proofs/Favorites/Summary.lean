import LabelPlaylists.Proofs.Favorites.Sample
import LabelPlaylists.Proofs.Favorites.Stored
import LabelPlaylists.Proofs.Library.Append

namespace LabelPlaylists

namespace Favorites

open Library (Tables)
open Spotify (Call SavedTrack Schema)
open Surroundings (Preserves)

/-! ## What is asked for -/

-- The calls that have been made in the course of a run.
def calls (es : List Exchange) : List Call := (called es).map (·.1)

-- The ids of the artists that a call looks up.
def idsOf? : Call → Option (List String)
  | .artists ids => some ids
  | _            => none

-- The artists that are looked up before the next page is asked for, request by request.
def lookups (es : List Exchange) : List (List String) :=
  ((calls es).takeWhile (·.kind ≠ .savedTracks)).filterMap idsOf?

-- The artists of a page that are not in the tables, in the order in which they come first.
def unstored (t : Tables) (items : List SavedTrack) : List String :=
  (items.flatMap fun i => i.track.artists.map (·.id)).eraseDups.filter fun id =>
    some id ∉ t.artists.map (·.id)

variable {es more before rest : List Exchange} {items : List SavedTrack} {t : Tables}

@[simp]
theorem calls_nil : calls [] = [] := rfl

@[simp]
theorem calls_cons {e : Exchange} : calls (e :: es) = e.call?.toList.map (·.1) ++ calls es := by
  simp [calls]

@[simp]
theorem calls_append : calls (es ++ more) = calls es ++ calls more := by
  simp [calls]

theorem mem_calls {token : String} {c : Call} {reply : Except Spotify.Trouble Json}
    (h : ⟨.call token c, reply⟩ ∈ es) : c ∈ calls es :=
  List.mem_map.mpr ⟨(c, reply), List.mem_filterMap.mpr ⟨_, h, rfl⟩, rfl⟩

-- Nothing is looked up afterwards but for another page.
theorem lookups_append (h : lookups more = []) : lookups (es ++ more) = lookups es := by
  rw [lookups] at h
  rw [lookups, lookups, calls_append, List.takeWhile_append]
  split
  case isFalse => rfl
  case isTrue hl =>
    have he := (List.takeWhile_prefix (l := calls es) fun c => decide (c.kind ≠ .savedTracks)).eq_of_length hl
    rw [he, List.filterMap_append, h, List.append_nil]

theorem lookups_of_calls {batches : List (List String)} (h : calls es = batches.map .artists) :
    lookups es = batches := by
  have hp : ∀ c ∈ batches.map Call.artists, decide (c.kind ≠ .savedTracks) := by
    intro c hc
    obtain ⟨_, _, rfl⟩ := List.mem_map.mp hc
    rfl
  rw [lookups, h, List.takeWhile_eq_self_iff.mpr hp, List.filterMap_map]
  exact List.filterMap_some

theorem distinct_eq_eraseDups (texts : List String) : distinct texts = texts.eraseDups := by
  suffices h : ∀ seen, texts.foldl (fun seen s => if seen.contains s then seen else seen ++ [s]) seen
      = seen ++ (texts.removeAll seen).eraseDups by
    simpa [distinct, List.removeAll] using h []
  induction texts
  case nil => intro seen; simp [List.removeAll]
  case cons s rest hi =>
    intro seen
    rw [List.foldl_cons, hi]
    by_cases hs : s ∈ seen
    case pos => simp [List.removeAll, hs]
    case neg =>
      have hf : rest.removeAll (seen ++ [s]) = (rest.removeAll seen).filter (!· == s) := by
        simp only [List.removeAll, List.filter_filter]
        exact List.filter_congr fun a _ => by simp [beq_eq_decide, Bool.and_comm]
      simp [hs, List.removeAll, List.eraseDups_cons] at hf ⊢
      rw [hf]

theorem nodup_distinct (texts : List String) : (distinct texts).Nodup := by
  suffices h : ∀ seen : List String, seen.Nodup →
      (texts.foldl (fun seen s => if seen.contains s then seen else seen ++ [s]) seen).Nodup from
    h [] List.nodup_nil
  induction texts
  case nil => exact fun _ h => h
  case cons s rest hi =>
    intro seen h
    rw [List.foldl_cons]
    refine hi _ ?_
    split
    case isTrue  => exact h
    case isFalse hs =>
      exact h.append (List.nodup_singleton s) (List.disjoint_singleton.mpr (mt List.contains_iff_mem.mpr hs))

theorem absent_artistIdsOf (t : Tables) (items : List SavedTrack) :
    absent t (artistIdsOf items) = unstored t items := by
  rw [absent, artistIdsOf, distinct_eq_eraseDups, unstored]
  exact List.filter_congr fun id _ => by rw [List.contains_eq_mem, decide_not]

theorem unstored_congr {t t' : Tables} (h : t'.artists = t.artists) : unstored t' items = unstored t items := by
  rw [unstored, unstored, h]

theorem nodup_unstored (t : Tables) (items : List SavedTrack) : (unstored t items).Nodup := by
  rw [← absent_artistIdsOf]
  exact (nodup_distinct _).filter _

/-! ## What is counted -/

variable {σ : Type} {S : Surroundings σ} {s s₁ s' : σ} {workers : Int} {a b c n : Nat}

-- New tokens and calls of Spotify add nothing.
theorem lasting_adds {t : Tables} : S.Lasting fun scene => t.Adds scene.library.tables a b c where
  rests hr h := by
    rcases hr with hs | ⟨x, g, m, hx, _, _, _, t', _, ht, hs⟩ <;> rw [hs]
    case inl => exact h
    case inr => cases Library.Command.Effect.of_setTokens (m := m) ht <;> exact { h with }
  call _ h := h

theorem artistsOf_calls {batches : List (List String)} {found : List Spotify.Artist}
    (h : S.Runs (Account.Service.artistsOf batches) s es (.ok found) s') :
    calls es = batches.map .artists := by
  induction batches generalizing s es found s'
  case nil => rw [h.done_inv.left]; rfl
  case cons batch rest hi =>
    have ⟨_, s₁, es₁, _, he₁, hl, h⟩ := h.bind_ok_inv
    have ⟨_, s₂, es₂, _, he₂, hc, h⟩ := h.bind_ok_inv
    have ⟨_, s₃, es₃, _, he₃, ho, h⟩ := h.bind_ok_inv
    have ⟨⟨_, hl⟩, _⟩ := hl.log_inv
    have ⟨_, _, _, _, hc, _⟩ := hc.call_ok_inv
    have hc : calls es₂ = [.artists batch] := by rw [calls, hc]; rfl
    simp [he₁, he₂, he₃, h.done_inv.left, hl, hc, hi ho, Exchange.call?]

-- The ids that are asked for are those that are not stored, and what is counted is what is added.
theorem addMissingArtists_exact {ids : List String} (h : S.Runs (addMissingArtists ids) s es (.ok n) s') :
    calls es = (pieces Account.Service.moreArtists (absent (S.scene s).library.tables ids)).map .artists ∧
    (S.scene s).library.tables.Adds (S.scene s').library.tables 0 n 0 := by
  obtain ⟨_, s₁, es₁, rest, hk, hs₁, he, h⟩ := addMissingArtists_ok_inv h
  obtain ⟨he₁, _, _⟩ := hk.library_inv (fun _ _ hf => by cases hf)
  rw [he, calls_append, he₁]
  rcases h with ⟨hm, hr, rfl, rfl⟩ | ⟨found, s₂, es₂, es₃, ha, h, he₂⟩
  case inl =>
    rw [hm, hr, hs₁, pieces]
    exact ⟨rfl, .refl _⟩
  case inr =>
    obtain ⟨l, hp, he₃, hs'⟩ := h.library_ok_eq (fun _ _ hf => by cases hf)
    have hlast := Preserves.artists lasting_adds _ _ _ _ ha (.refl _)
    have hadd := hlast.trans (Library.Store.perform_addArtists_count hp)
    rw [he₂, calls_append, artistsOf_calls ha, he₃, hs', ← hs₁]
    exact ⟨by simp [Exchange.call?], by simpa using hadd⟩

theorem addTracks_exact {u : Int} {r : Unit} (h : S.Runs (addTracks u items) s es (.ok r) s') :
    calls es = [] ∧ (S.scene s).library.tables.Adds (S.scene s').library.tables 0 0 items.length := by
  induction items generalizing s es
  case nil =>
    obtain ⟨he, _, hs⟩ := h.done_inv
    rw [he, hs]
    exact ⟨rfl, .refl _⟩
  case cons i rest hi =>
    have ⟨k, s₁, es₁, _, he₁, hadd, h⟩ := h.bind_ok_inv
    have ⟨_, es₂, s₂, he₂, hs₂, h⟩ := h.log_bind_inv
    have ⟨l, hp, hn₁, hs₁⟩ := hadd.library_ok_eq (fun _ _ hf => by cases hf)
    have ⟨hc, hr⟩ := hi h
    rw [hs₂, hs₁] at hr
    have hr := (Library.Store.perform_addTrack_count hp).trans hr
    rw [Nat.add_comm 1] at hr
    exact ⟨by simp [he₁, he₂, hn₁, hc, Exchange.call?], hr⟩

def Summary.plus (sum more : Summary) : Summary :=
  ⟨sum.pages + more.pages, sum.albums + more.albums, sum.artists + more.artists, sum.tracks + more.tracks⟩

-- A page that is stored: what is asked for, what is counted, and what is added.
theorem addPage_exact {sum : Summary} {r : Nat × Summary}
    (h : S.Runs (addPage workers items sum) s es (.ok r) s') :
    calls es = (pieces Account.Service.moreArtists (unstored (S.scene s).library.tables items)).map .artists ∧
    ∃ a b c, r.2 = sum.plus ⟨0, a, b, c⟩ ∧ (S.scene s).library.tables.Adds (S.scene s').library.tables a b c := by
  by_cases hn : items = []
  case pos =>
    subst hn
    obtain ⟨he, ho, hs⟩ := h.done_inv
    cases ho
    rw [he, hs]
    exact ⟨by simp [unstored, pieces], 0, 0, 0, rfl, .refl _⟩
  case neg =>
    obtain ⟨_, a, b, x, known, s₁, s₂, s₃, s₄, es₁, es₂, es₃, es₄, es₅, hal, hart, hx, hk, ht, he, hr⟩ :=
      addPage_ok_inv hn h
    obtain ⟨l, hp, hn₁, hs₁⟩ := hal.library_ok_eq (fun _ _ hf => by cases hf)
    obtain ⟨hc₂, hadd₂⟩ := addMissingArtists_exact hart
    obtain ⟨hn₃, _, hs₃⟩ := hx.session_ok_inv
    obtain ⟨l', hp', hn₄, hs₄⟩ := hk.library_ok_eq (fun _ _ hf => by cases hf)
    obtain ⟨hc₅, hadd₅⟩ := addTracks_exact ht
    have hadd₁ := Library.Store.perform_addAlbums_count hp
    have hl' : l' = (S.scene s₃).library :=
      (congrArg Prod.snd (Library.Store.perform_eq_ok_iff.mp hp')).symm.trans
        (Library.Store.still_work (by simp [Library.Command.Writes]) _)
    have hs₄ : S.scene s₄ = S.scene s₂ := by rw [hs₄, hl', hs₃]
    rw [hs₁] at hc₂ hadd₂
    rw [hs₄, (oldestFirst_perm _).length_eq] at hadd₅
    have hadd := (hadd₁.trans hadd₂).trans hadd₅
    rw [absent_artistIdsOf, unstored_congr hadd₁.artists_eq] at hc₂
    exact ⟨by simp [he, hn₁, hn₃, hn₄, hc₂, hc₅, Exchange.call?], a, b, (newItems known items).length,
      congrArg Prod.snd hr, by simpa using hadd⟩

-- A page has been answered by the last request.
theorem savedTracks_ok_inv {offset limit : Int} {page : Spotify.SavedTracks}
    (h : S.Runs (Account.Service.savedTracks offset limit) s es (.ok page) s') :
    ∃ before token reply, es = before ++ [⟨.call token (.savedTracks limit offset), reply⟩] ∧
      calls before = [] ∧ heard Schema.savedTracks reply = some page ∧
      (S.scene s').library = (S.scene (S.after s before)).library ∧
      (S.scene s).library.tables.Adds (S.scene s').library.tables 0 0 0 := by
  have hadd := Preserves.bind .log (fun _ => .call lasting_adds) _ _ _ _ h (.refl _)
  obtain ⟨_, s₁, es₁, _, he₁, hl, h⟩ := h.bind_ok_inv
  obtain ⟨token, s₂, es₂, _, he₂, ht, h⟩ := h.bind_ok_inv
  obtain ⟨⟨_, hn₁⟩, _⟩ := hl.log_inv
  have hn₂ := ht.called_eq_nil (Account.asks_validToken Request.covers_aside)
  obtain ⟨hc, hp⟩ := h.execute_ok_eq
  obtain ⟨_, hs, _⟩ := h.execute_inv
  refine ⟨es₁ ++ es₂, token, _, by rw [he₁, he₂, hc, List.append_assoc], ?_, hp, ?_, hadd⟩
  · rw [calls, called_append, hn₁, hn₂]
    rfl
  · rw [Surroundings.after_append, hl.after_eq, ht.after_eq, hs]

/-! ## What a summary tells -/

-- What is looked up for a page: the artists that the tables do not have, each once, in the order of the page.
structure LooksUp (t : Tables) (items : List SavedTrack) (batches : List (List String)) : Prop where
  ids   : batches.flatten = unstored t items
  once  : batches.flatten.Nodup
  sizes : ∀ batch ∈ batches, 1 ≤ batch.length ∧ batch.length ≤ 50

-- What has come of pages, one after the other:
-- 1. so many pages have been asked for
-- 2. so many albums, artists and tracks have been added
-- 3. artists are looked up for a page only
-- 4. the artists that are looked up for a page are those that were not stored when it was asked for
structure Exact (S : Surroundings σ) (sum : Summary) (s : σ) (es : List Exchange) (s' : σ) : Prop where
  pages : sum.pages = (calls es).countP (·.kind = .savedTracks)
  rows  : (S.scene s).library.tables.Adds (S.scene s').library.tables sum.albums sum.artists sum.tracks
  first : lookups es = []
  page  : ∀ {before token limit offset reply rest},
    es = before ++ ⟨.call token (.savedTracks limit offset), reply⟩ :: rest →
    ∃ page, heard Schema.savedTracks reply = some page ∧
      LooksUp (S.scene (S.after s before)).library.tables page.items (lookups rest)

namespace Exact

variable {sum more : Summary}

theorem nothing (hc : calls es = [])
    (ha : (S.scene s).library.tables.Adds (S.scene s').library.tables 0 0 0) : Exact S {} s es s' where
  pages := by rw [hc]; rfl
  rows  := ha
  first := by rw [lookups, hc]; rfl
  page  := by
    rintro before token limit offset reply rest rfl
    cases hc ▸ mem_calls (List.mem_append_right _ List.mem_cons_self)

-- One after the other, with what has been looked up for the last page of the first part complete.
theorem append (h : Exact S sum s es s₁) (h' : Exact S more s₁ rest s') (hs : S.after s es = s₁) :
    Exact S (sum.plus more) s (es ++ rest) s' where
  pages := by rw [calls_append, List.countP_append, ← h.pages, ← h'.pages]; rfl
  rows  := h.rows.trans h'.rows
  first := (lookups_append h'.first).trans h.first
  page  := by
    intro before token limit offset reply rest' he
    have hlater (lead : List Exchange) (hb : before = es ++ lead)
        (hr : rest = lead ++ ⟨.call token (.savedTracks limit offset), reply⟩ :: rest') :
        ∃ page, heard Schema.savedTracks reply = some page ∧
          LooksUp (S.scene (S.after s before)).library.tables page.items (lookups rest') := by
      rw [hb, Surroundings.after_append, hs]
      exact h'.page hr
    rcases List.append_eq_append_iff.mp he with ⟨lead, hb, hr⟩ | ⟨_ | ⟨e, lead⟩, hb, hr⟩
    case inl     => exact hlater lead hb hr
    case inr.nil => exact hlater [] (by simpa using hb.symm) (by simpa using hr.symm)
    case inr.cons =>
      obtain ⟨rfl, rfl⟩ := List.cons.inj hr
      have hp := h.page hb
      rwa [← lookups_append h'.first] at hp

-- One page: nothing else is asked for than its artists.
theorem of_page {token : String} {limit offset : Int} {reply : Except Spotify.Trouble Json}
    {page : Spotify.SavedTracks} (hb : calls before = []) (hp : heard Schema.savedTracks reply = some page)
    (hc : calls rest = (pieces Account.Service.moreArtists
      (unstored (S.scene (S.after s before)).library.tables page.items)).map .artists)
    (ha : (S.scene s).library.tables.Adds (S.scene s').library.tables a b c) :
    Exact S ⟨1, a, b, c⟩ s (before ++ ⟨.call token (.savedTracks limit offset), reply⟩ :: rest) s' where
  pages := by simp [hb, hc, Exchange.call?, Call.kind, Function.comp_def]
  rows  := ha
  first := by simp [lookups, hb, Exchange.call?, Call.kind]
  page  := by
    intro before' token' limit' offset' reply' rest' he
    have hbefore : ⟨.call token' (.savedTracks limit' offset'), reply'⟩ ∉ before := fun hm => by
      cases hb ▸ mem_calls hm
    have hrest : ⟨.call token' (.savedTracks limit' offset'), reply'⟩ ∉ rest := fun hm => by
      obtain ⟨_, _, hm⟩ := List.mem_map.mp (hc ▸ mem_calls hm)
      cases hm
    obtain ⟨rfl, hsame, rfl⟩ := (List.append_cons_inj_of_notMem hbefore hrest).mp he
    cases hsame
    refine ⟨page, hp, ?_⟩
    rw [lookups_of_calls hc]
    have hids := flatten_pieces Account.Service.moreArtists
      (unstored (S.scene (S.after s before)).library.tables page.items)
    exact ⟨hids, by rw [hids]; exact nodup_unstored _ _, fun _ => length_le_of_mem_pieces⟩

end Exact

theorem turn_exact {offset limit : Nat} {sum : Summary} {r : Nat × Summary}
    (h : S.Runs (turn workers offset limit sum) s es (.ok r) s') :
    ∃ d, r.2 = sum.plus d ∧ Exact S d s es s' := by
  obtain ⟨page, s₁, es₁, _, he₁, hp, h⟩ := h.bind_ok_inv
  obtain ⟨⟨count, sum'⟩, s₂, es₂, _, he₂, hadd, h⟩ := h.bind_ok_inv
  obtain ⟨_, es₃, s₃, he₃, hs₃, h⟩ := h.log_bind_inv
  obtain ⟨hn, ho, hs'⟩ := h.done_inv
  cases ho
  obtain ⟨before, token, reply, hes, hb, hheard, hlib, hadd₁⟩ := savedTracks_ok_inv hp
  obtain ⟨hc, a, b, c, hsum, hadd₂⟩ := addPage_exact hadd
  rw [hlib] at hc
  have hadd := hadd₁.trans hadd₂
  simp only [Nat.zero_add] at hadd
  refine ⟨⟨1, a, b, c⟩, hsum, ?_⟩
  rw [he₁, hes, List.append_assoc, List.singleton_append]
  refine .of_page hb hheard ?_ (by rw [hs', hs₃]; exact hadd)
  rw [he₂, he₃, hn]
  simp [hc, Exchange.call?]

theorem pullFrom_exact {pages offset limit : Nat} {sum total : Summary}
    (h : S.Runs (pullFrom workers pages offset limit sum) s es (.ok total) s') :
    ∃ d, total = sum.plus d ∧ Exact S d s es s' := by
  induction pages generalizing offset limit sum s es
  case zero =>
    obtain ⟨he, ho, hs⟩ := h.done_inv
    cases ho
    exact ⟨{}, rfl, .nothing (he ▸ rfl) (hs ▸ .refl _)⟩
  case succ pages hi =>
    rw [pullFrom_succ] at h
    obtain ⟨r, s₁, es₁, rest, he, ht, h⟩ := h.bind_ok_inv
    obtain ⟨d, hd, hx⟩ := turn_exact ht
    split at h
    case isTrue =>
      obtain ⟨d', hd', hx'⟩ := hi h
      refine ⟨d.plus d', ?_, he ▸ hx.append hx' ht.after_eq⟩
      rw [hd', hd]
      simp [Summary.plus, Nat.add_assoc]
    case isFalse =>
      obtain ⟨hn, ho, hs⟩ := h.done_inv
      cases ho
      rw [he, hn, hs, List.append_nil]
      exact ⟨d, hd, hx⟩

-- The summary of a pull, and what it has looked up.
theorem pull_exact {pages : Nat} {total : Summary} (h : S.Runs (pull pages workers) s es (.ok total) s') :
    Exact S total s es s' := by
  rw [pull_eq] at h
  obtain ⟨sum, s₁, es₁, rest, he, hf, h⟩ := h.bind_ok_inv
  obtain ⟨d, hd, hx⟩ := pullFrom_exact hf
  obtain ⟨_, es₂, s₂, he₂, hs₂, h⟩ := h.log_bind_inv
  obtain ⟨hn, ho, hs'⟩ := h.done_inv
  cases ho
  have hlast : Exact S {} s₁ rest s' := by
    refine .nothing (by rw [he₂, hn]; rfl) ?_
    rw [hs', hs₂]
    exact .refl _
  have htotal : total = d.plus {} := by
    rw [hd]
    simp [Summary.plus]
  rw [he, htotal]
  exact hx.append hlast hf.after_eq

open Sample in
theorem pull_exact_repeated :
    ∃ es s', (account [favorite "t1", favorite "t1"] fun _ => true).Runs (pull 1 1) (scene tables) es
        (.ok ⟨1, 0, 1, 1⟩) s' ∧
      Exact (account [favorite "t1", favorite "t1"] fun _ => true) ⟨1, 0, 1, 1⟩ (scene tables) es s' := by
  have h := (account [favorite "t1", favorite "t1"] fun _ => true).runs_trace (pull 1 1) (scene tables)
  have ho : ((account [favorite "t1", favorite "t1"] fun _ => true).trace (pull 1 1) (scene tables)).2.1
      = .ok ⟨1, 0, 1, 1⟩ :=
    eq_ok_of_toOption (by decide +kernel)
  rw [ho] at h
  exact ⟨_, _, h, pull_exact h⟩

end Favorites

end LabelPlaylists

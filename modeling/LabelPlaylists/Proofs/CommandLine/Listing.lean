import LabelPlaylists.Proofs.CommandLine.Frame
import LabelPlaylists.Proofs.CommandLine.Paged
import LabelPlaylists.Proofs.Criteria.Limits
import LabelPlaylists.Proofs.Favorites.Sample
import LabelPlaylists.Proofs.Library.Newest

namespace LabelPlaylists

open Criteria (Condition compile)
open Library (Store Tables TrackView)

namespace Library.Tables

variable {t : Tables} {u : Int} {c : Condition}

-- Criteria hold of all tracks of a user.
def AllPass (t : Tables) (u : Int) (c : Condition) : Prop :=
  ∀ r ∈ t.tracks, r.userId = u → t.passes c.filter r

-- They do if they are true of each one.
theorem allPass_iff (hs : t.Sound) (hp : t.IsPlain) {p : Criteria.Tree} (hc : Condition.ofTree p = .ok c) :
    t.AllPass u c ↔ ∀ r ∈ t.tracks, r.userId = u →
      ∃ a ∈ t.albums, a.id = some r.albumId ∧ p.meaning (t.facts r a) = some true :=
  forall₂_congr fun _ hr => forall_congr' fun _ => passes_iff hs hp hr hc

-- A track is explicit or it is not.
theorem allPass_either (hs : t.Sound) : t.AllPass u (.or [.isExplicit, .not .isExplicit]) := by
  intro r hr _
  have ⟨a, ha⟩ := hs.albumOf hr
  unfold passes
  rw [(album?_eq_some_iff hs).mpr ha]
  have he : (t.scope r a).value .explicit = .integer (if r.explicit then 1 else 0) := rfl
  have heval : (Condition.or [.isExplicit, .not .isExplicit]).test.eval (t.scope r a) [] = some true := by
    simp only [Condition.test, Condition.tests, Sql.Test.eval, Sql.Test.evalAny, Sql.Value.eval, he]
    cases r.explicit <;> rfl
  exact congrArg (· == some true) heval

theorem find_of_allPass (h : t.AllPass u c) (hr : c.test.IsReadable) (hl : c.test.IsLow) :
    t.find (.integer u) (some c.filter) = .ok (t.viewsOf u) := by
  have hf : (t.tracksOf (.integer u)).filter (t.passes c.filter) = t.tracksOf (.integer u) := by
    refine List.filter_eq_self.mpr fun r hr => ?_
    have ⟨hr, hu⟩ := List.mem_filter.mp (mem_listed.mp hr)
    exact h r hr (of_decide_eq_true hu)
  rw [find_ok hr hl, hf]
  rfl

end Library.Tables

namespace CommandLine

open Surroundings

-- A page of what is listed. Pages are counted from one.
def pageOf (views : List TrackView) (limit page : Int) : List TrackView :=
  (views.drop ((page - 1) * limit).toNat).take limit.toNat

-- The first pages, put together.
theorem flatMap_pageOf {views : List TrackView} {limit : Int} (h : 0 ≤ limit) (n : Nat) :
    ((List.range n).flatMap fun k : Nat => pageOf views limit (k + 1)) = views.take (n * limit.toNat) := by
  induction n
  case zero      => simp
  case succ n hi =>
    have ho : ((n + 1 - 1 : Int) * limit).toNat = n * limit.toNat := by
      rw [Int.add_sub_cancel, Int.toNat_mul (Int.natCast_nonneg n) h, Int.toNat_natCast]
    rw [List.range_succ, List.flatMap_append, hi, List.flatMap_singleton, pageOf, ho, Nat.succ_mul, List.take_add]

-- What a page of a user's tracks comes to. The number of a user is refused if it is too large.
def shownPage (t : Tables) (u limit page : Int) : Except Failure (List TrackView) :=
  if Datum.IsStorable u then .ok (pageOf (t.viewsOf u) limit page) else .error (.library .numberTooLarge)

variable {σ : Type} {S : Surroundings σ} {l : Store} {s : σ} {u limit page : Int} {text : String} {c : Condition}
variable {g : Globals} {words words' : List String} {x : Session}

theorem trace_tracksOfPage (hs : S.Opens l) (hl : (S.scene s).library = l) (h : 0 ≤ limit)
    (hlimit : Datum.IsStorable limit) (hoffset : Datum.IsStorable ((page - 1) * limit)) :
    said (S.trace (tracksOfPage u none limit page) s).1 = [] ∧
      (S.trace (tracksOfPage u none limit page) s).2.1 = shownPage l.tables u limit page := by
  have ⟨hn, ho⟩ := trace_library (S := S) (s := s)
    (c := .tracks (.integer u) (.integer limit) (.integer ((page - 1) * limit)))
  refine ⟨hn, ho.trans ?_⟩
  rw [hs.answer hl]
  unfold shownPage
  split
  case isTrue hu  => rw [Store.perform_tracks hu hlimit hoffset h]; rfl
  case isFalse hu =>
    rw [Store.perform_ask_eq (c := .tracks ..) rfl]
    simp [Library.Work.refusal?, hu, Except.mapError]

-- Accepted criteria are searched for.
theorem tracksOfPage_eq (hc : compile text = .ok c) :
    tracksOfPage u (some text) limit page
      = Program.library (.find (.integer u) (some c.filter)) >>= fun found =>
        .done (pageOf found limit page) := by
  have hf : (compile text).toOption.map (·.filter) = some c.filter := by rw [hc]; rfl
  have hp : requireValid text = .done () := by rw [requireValid, Criteria.problem?, hc]
  show (requireValid text >>= fun _ =>
    Program.library (.find (.integer u) ((compile text).toOption.map (·.filter))) >>= fun found =>
      .done (pageOf found limit page)) = _
  rw [hp, hf]
  rfl

theorem trace_search (u limit page : Int) (hs : S.Opens l) (hl : (S.scene s).library = l)
    (hc : compile text = .ok c) :
    said (S.trace (tracksOfPage u (some text) limit page) s).1 = [] ∧
      (S.trace (tracksOfPage u (some text) limit page) s).2.1 =
        ((l.perform (S.clock s) (.find (.integer u) (some c.filter))).1.mapError .library).map
          (pageOf · limit page) := by
  have ⟨hn, ho⟩ := trace_library (S := S) (s := s) (c := .find (.integer u) (some c.filter))
  rw [hs.answer hl] at ho
  rw [tracksOfPage_eq hc, trace_bind, ← ho]
  rcases htr : S.trace (Program.library (.find (.integer u) (some c.filter))) s with ⟨es, o, s'⟩
  rw [htr] at hn
  cases o
  case error => exact ⟨hn, rfl⟩
  case ok    => exact ⟨said_append.trans (by rw [hn]; rfl), rfl⟩

-- Criteria that hold of all tracks make no difference.
theorem trace_search_allPass (limit page : Int) (hs : S.Opens l) (hl : (S.scene s).library = l)
    (hc : compile text = .ok c) (hr : c.test.IsReadable) (hlow : c.test.IsLow) (h : l.tables.AllPass u c) :
    said (S.trace (tracksOfPage u (some text) limit page) s).1 = [] ∧
      (S.trace (tracksOfPage u (some text) limit page) s).2.1 = shownPage l.tables u limit page := by
  have ⟨hn, ho⟩ := trace_search u limit page hs hl hc
  refine ⟨hn, ho.trans ?_⟩
  unfold shownPage
  split
  case isTrue hu  => rw [Store.perform_find_of_compile hu hc, Tables.find_of_allPass h hr hlow]; rfl
  case isFalse hu =>
    rw [Store.perform_find_eq]
    simp [Library.Work.refusal?, hu, Except.mapError, Except.map]

-- Criteria that the store cannot read are refused.
theorem trace_search_tooDeep (hs : S.Opens l) (hl : (S.scene s).library = l) (hu : Datum.IsStorable u)
    (hc : compile text = .ok c) (hr : ¬c.test.IsReadable) :
    said (S.trace (tracksOfPage u (some text) limit page) s).1 = [] ∧
      (S.trace (tracksOfPage u (some text) limit page) s).2.1 = .error (.library (.fault .tooDeep)) := by
  have ⟨hn, ho⟩ := trace_search u limit page hs hl hc
  rw [Store.perform_find_of_compile hu hc, Tables.find_tooDeep hr] at ho
  exact ⟨hn, ho⟩

def showTracks (views : List TrackView) : Program Unit :=
  if views.isEmpty then Program.print "No tracks"
  else Program.print ("\n".intercalate (views.map trackLine))

theorem asks_showTracks (views : List TrackView) : (showTracks views).Asks Request.IsOneWay := by
  unfold showTracks
  split <;> exact .ask trivial fun _ => .done

theorem alike_listTracks (hs : S.Opens l) (hl : (S.scene s).library = l) (hx : (S.scene s).session = some x)
    (h : 0 ≤ limit) (hlimit : Datum.IsStorable limit) (hoffset : Datum.IsStorable ((page - 1) * limit))
    (hc : compile text = .ok c) (hr : c.test.IsReadable) (hlow : c.test.IsLow)
    (hp : l.tables.AllPass x.userId c) :
    S.Alike (listTracks none limit page) s (listTracks (some text) limit page) s := by
  refine alike_session hx fun s' hs' => ?_
  have hl : (S.scene s').library = l := hs' ▸ hl
  have ⟨hn, ho⟩ := trace_tracksOfPage (u := x.userId) hs hl h hlimit hoffset
  have ⟨hn', ho'⟩ := trace_search_allPass limit page hs hl hc hr hlow hp
  exact Alike.bind ⟨hn.trans hn'.symm, ho.trans ho'.symm⟩ asks_showTracks

theorem alike_listTracks_tooDeep (hs : S.Opens l) (hl : (S.scene s).library = l)
    (hx : (S.scene s).session = some x) (hu : Datum.IsStorable x.userId) (hc : compile text = .ok c)
    (hr : ¬c.test.IsReadable) :
    S.Alike (listTracks (some text) limit page) s
      (Program.session >>= fun _ => .fail (.library (.fault .tooDeep)) >>= showTracks) s :=
  alike_session hx fun _ hs' => .bind (trace_search_tooDeep hs (hs' ▸ hl) hu hc hr) asks_showTracks

-- What runs if a page of tracks is asked for.
theorem run_eq {criteria : Option String} (h : AsksForPage words g criteria limit page) :
    run words =
      match g.shows, g.config with
      | some text, _    => Program.print text >>= fun _ => .done 0
      | none, some path => requireFile path >>= fun _ => runCommand g (.tracks criteria limit page)
      | none, none      => runCommand g (.tracks criteria limit page) := by
  have ⟨rest, hg, hc⟩ := h
  unfold run
  rw [hg, ofUsage]
  dsimp only [bind, Program.bind]
  cases g.shows
  case some => rfl
  case none =>
    rw [hc]
    cases g.config <;> rfl

theorem alike_run (hs : S.Opens l) (hw : AsksForPage words g none limit page)
    (hw' : AsksForPage words' g (some text) limit page)
    (hlimit : Datum.IsStorable limit) (hoffset : Datum.IsStorable ((page - 1) * limit))
    (hc : compile text = .ok c) (hr : c.test.IsReadable) (hlow : c.test.IsLow)
    (hp : ∀ v ∈ l.tables.chosen? g.user, l.tables.AllPass v.id c) :
    S.Alike (run words) s (run words') s := by
  have hpos : 0 ≤ limit := Int.le_trans (by decide) hw.le.left
  have ha {s : σ} : S.Alike (runCommand g (.tracks none limit page)) s
      (runCommand g (.tracks (some text) limit page)) s := by
    refine alike_application hs fun hl => alike_forUser hl fun v hv he hl hx => ?_
    exact alike_listTracks hs hl hx hpos hlimit hoffset hc hr hlow (he ▸ hp v hv)
  rw [run_eq hw, run_eq hw']
  cases g.shows
  case some => exact .refl
  case none =>
    cases g.config
    case none => exact ha
    case some => exact .after leads_any fun _ => ha

namespace Sample

open Criteria (negated)

def configuration : Settings :=
  ⟨"client", "secret", "http://localhost/callback", ["library"], 2, 30, ["logs"]⟩

-- Whatever file is opened, the same library is found in it.
def answer : (r : Request) → Scene → r.Reply × Scene
  | .settings _, s    => (.ok configuration, s)
  | .openLog .., s    => (.ok (), s)
  | .openLibrary _, s => (.ok (), { s with library := Store.Sample.library })
  | r, s              => Favorites.Sample.answer [] (fun _ => false) r s

def opening : Surroundings Scene where
  answer     := answer
  scene      := id
  clock      := fun _ => Favorites.Sample.noon
  library    := fun _ => rfl
  call       := rfl
  grant      := rfl
  now        := rfl
  log        := rfl
  session    := rfl
  setSession := rfl

theorem opens : opening.Opens Store.Sample.library where
  opened := fun _ => rfl
  find   := rfl

def start : Scene := ⟨.create "library", none, []⟩

theorem reached : Store.Reached (fun _ => True) Store.Sample.library :=
  Store.Sample.library_reached.mono fun _ _ => trivial

def plainWords : List String := ["tracks", "--limit", "20", "--page", "1"]

def wordsWith (criteria : String) : List String :=
  ["tracks", "--limit", "20", "--page", "1", "--criteria", criteria]

theorem asks_words : AsksForPage plainWords plainGlobals none 20 1 :=
  asksForPage_words rfl rfl

theorem asks_wordsWith (criteria : String) :
    AsksForPage (wordsWith criteria) plainGlobals (some criteria) 20 1 :=
  asksForPage_criteria rfl rfl

theorem run_plain {criteria : Option String} (h : AsksForPage words plainGlobals criteria limit page) :
    run words = runCommand plainGlobals (.tracks criteria limit page) :=
  run_eq h

theorem words_end : (opening.trace (run plainWords) start).2.1 = .ok 0 := by
  rw [run_plain asks_words]
  exact eq_ok_of_toOption (by decide +kernel)

def either : Condition := .or [.isExplicit, .not .isExplicit]

theorem compile_either : compile "explicit or not explicit" = .ok either := by
  have ⟨ts, hs, hd⟩ := Criteria.derives_negated 1 12
  have ⟨t, ht, hc⟩ := hd 100 (by decide)
  have hl : "explicit or not explicit".toList = "explicit or ".toList ++ (negated 1).toList := by
    decide +kernel
  have hs : Criteria.tokens "explicit or not explicit"
      = .ok (⟨.word "explicit", 0, 8⟩ :: ⟨.or, 9, 2⟩ :: ts) := by
    rw [Criteria.tokens, hl]
    exact Criteria.scan_alternative hs
  have hf : Criteria.Derives 100 (.joined .and) [⟨.word "explicit", 0, 8⟩] [_] := .alone (.last (.name rfl))
  have hr : Criteria.Derives 100 (.operands .or) ts [t] := .last (.alone (.last ht))
  have hj := (hf.more (c := .or) (k := ⟨.or, 9, 2⟩) rfl hr).join (Nat.le_refl 2)
  refine Criteria.compile_of_derives hs hj ?_
  show Condition.ofTree (.or [_, t]) = _
  rw [Condition.ofTree, Condition.ofTrees, Criteria.ofTree_flag, Condition.ofTrees, hc]
  rfl

-- Criteria of a hundred negations.
@[irreducible]
def deep : Condition := Condition.not^[100] .isExplicit

theorem compile_deep : compile (negated 100) = .ok deep := by
  rw [Criteria.compile_negated (by decide), deep]

theorem deep_not_isReadable : ¬deep.test.IsReadable := by
  unfold Sql.Test.IsReadable deep
  rw [Criteria.pending_negated]
  decide

theorem deep_allPass :
    ∀ v ∈ Store.Sample.library.tables.chosen? none, Store.Sample.library.tables.AllPass v.id deep := by
  have h : Store.Sample.library.tables.tracks.all (Store.Sample.library.tables.passes deep.filter) := by
    unfold deep
    decide +kernel
  exact fun _ _ r hr _ => List.all_eq_true.mp h r hr

-- They come to the same end as a search that the store refuses.
theorem alike_negated :
    opening.Alike (runCommand plainGlobals (.tracks (some (negated 100)) 20 1)) start
      (application plainGlobals fun _ => forUser plainGlobals.user <|
        Program.session >>= fun _ => .fail (.library (.fault .tooDeep)) >>= showTracks) start := by
  refine alike_application opens fun hl => alike_forUser hl fun v hv he hl hx => ?_
  refine alike_listTracks_tooDeep opens hl hx ?_ compile_deep deep_not_isReadable
  rw [he, ← Option.some.inj hv]
  decide

end Sample

end CommandLine

end LabelPlaylists

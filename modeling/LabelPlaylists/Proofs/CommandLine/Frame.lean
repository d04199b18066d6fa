import LabelPlaylists.CommandLine.Run
import LabelPlaylists.Proofs.CommandLine.Requests
import LabelPlaylists.Proofs.Program.Alike

namespace LabelPlaylists

open Library (Store Tables)

-- The user that commands work for.
def Library.Tables.chosen? (t : Tables) : Option String → Option User
  | some name => t.userNamed? name
  | none      =>
    match t.users with
    | [u] => some u
    | _   => none

-- The library that commands open. Searches are performed like all else.
structure Surroundings.Opens {σ : Type} (S : Surroundings σ) (l : Store) : Prop where
  opened : ∀ {p s}, (S.answer (.openLibrary p) s).1 = .ok () →
    (S.scene (S.answer (.openLibrary p) s).2).library = l
  find   : ∀ {u f s}, (S.answer (.library (.find u f)) s).1
    = ((S.scene s).library.perform (S.clock s) (.find u f)).1

variable {σ : Type} {S : Surroundings σ} {l : Store} {s : σ}

theorem Surroundings.Opens.answer (hs : S.Opens l) {c : Library.Command} (hl : (S.scene s).library = l) :
    (S.answer (.library c) s).1 = (l.perform (S.clock s) c).1 := by
  rw [← hl]
  by_cases hq : ∃ d f, c = .find d f
  case pos => obtain ⟨d, f, rfl⟩ := hq; exact hs.find
  case neg => exact (Prod.mk.inj (S.library fun d f he => hq ⟨d, f, he⟩)).left

namespace CommandLine

open Surroundings

variable {g : Globals} {work work' : Settings → Program Unit} {t t' : Program Unit}

theorem leads_any {t : Program α} : S.Leads t s (fun _ _ => True) fun _ => True := by
  unfold Surroundings.Leads
  split <;> trivial

-- Nobody but the session in use is asked for.
theorem alike_session {f f' : Session → Program α} {x : Session} (hx : (S.scene s).session = some x)
    (h : ∀ s', S.scene s' = S.scene s → S.Alike (f x) s' (f' x) s') :
    S.Alike (Program.session >>= f) s (Program.session >>= f') s := by
  have ⟨hx', hs'⟩ := Prod.mk.inj (S.session (s := s))
  refine .ask rfl ?_
  rw [hx', hx]
  exact h _ hs'

theorem asks_report {f : Failure} : (report f).Asks Request.IsOneWay := by
  unfold report
  split
  case h_1 => exact .ask trivial fun _ => .ask trivial fun _ => .done
  case h_2 =>
    split
    case h_1 => exact .done
    case h_2 =>
      refine .ask trivial fun _ => ?_
      split <;> split
      case isTrue.isTrue   => exact .ask trivial fun _ => .ask trivial fun _ => .done
      case isTrue.isFalse  => exact .ask trivial fun _ => .done
      case isFalse.isTrue  => exact .ask trivial fun _ => .done
      case isFalse.isFalse => exact .done

-- All that comes before the work of a command, and after it, is the same.
theorem alike_application (hs : S.Opens l)
    (h : ∀ {x s}, (S.scene s).library = l → S.Alike (work x) s (work' x) s) :
    S.Alike (application g work) s (application g work') s := by
  refine .ask rfl ?_
  cases (S.answer (.settings g.config) s).1
  case error => exact .refl
  case ok x  =>
    refine .ask rfl (.ask rfl ?_)
    cases (S.answer (.openLog x.logs g.verbose) _).1
    case error => exact .refl
    case ok =>
      refine Alike.bind (.outcome ?_) fun result => ?_
      case refine_1 =>
        refine .after leads_any fun _ => ?_
        refine .after (P := fun _ s => (S.scene s).library = l) (E := fun _ => True) ?_ fun hl => h hl
        refine .ask ?_
        cases ho : (S.answer (.openLibrary x.library) _).1
        case ok    => exact hs.opened ho
        case error => exact trivial
      case refine_2 =>
        have hclose {ended : Except Failure Int} : (do
            Program.ask .closeLibrary .done
            .ask .closeLog .done
            .ofExcept ended : Program Int).Asks Request.IsOneWay :=
          .ask trivial fun _ => .ask trivial fun _ => asks_ofExcept
        cases result
        case ok    => exact hclose
        case error => exact asks_report.bind fun _ => hclose

theorem userId_of_ofUser? {row : Library.User} {x : Session} (h : Session.ofUser? row = some x) :
    x.userId = row.id := by
  have ⟨_, _, he⟩ := Option.map_eq_some_iff.mp h
  rw [← he]

-- A question that leaves the library as it is.
theorem leads_question (hl : (S.scene s).library = l) {c : Library.Command} {a : c.Reply}
    (hc : ∀ d f, c ≠ .find d f) (hp : ∀ now, l.perform now c = (.ok a, l)) :
    S.Leads (Program.library c) s (fun b s' => b = a ∧ (S.scene s').library = l) fun _ => True := by
  have ⟨ha, hb⟩ := Prod.mk.inj (S.library (s := s) hc)
  rw [hl, hp] at ha hb
  refine .ask ?_
  rw [ha]
  exact ⟨rfl, by rw [hb]⟩

theorem leads_chosenSession (hl : (S.scene s).library = l) {user : Option String} :
    S.Leads (chosenSession user) s
      (fun x s' => (S.scene s').library = l ∧ ∃ u ∈ l.tables.chosen? user, x.userId = u.id) fun _ => True := by
  unfold chosenSession
  cases user
  case none =>
    have hq := leads_question hl (c := .users) (a := l.tables.users) (by rintro _ _ ⟨⟩) fun _ => rfl
    refine hq.bind fun h => ?_
    obtain ⟨rfl, hl⟩ := h
    cases hu : l.tables.users
    case nil => exact trivial
    case cons row rest =>
      cases rest
      case cons => exact trivial
      case nil  =>
        dsimp only [bind, Program.bind]
        cases hx : Session.ofUser? row
        case none   => exact trivial
        case some x => exact ⟨hl, row, by simp [Tables.chosen?, hu], userId_of_ofUser? hx⟩
  case some name =>
    have hq := leads_question hl (c := .userNamed (.text name)) (a := l.tables.userNamed? name)
      (by rintro _ _ ⟨⟩) fun _ => rfl
    refine hq.bind fun h => ?_
    obtain ⟨rfl, hl⟩ := h
    cases hu : l.tables.userNamed? name
    case none     => exact trivial
    case some row =>
      dsimp only [bind, Program.bind]
      cases hx : Session.ofUser? row
      case none   => exact trivial
      case some x => exact ⟨hl, row, by simp [Tables.chosen?, hu], userId_of_ofUser? hx⟩

theorem alike_forUser (hl : (S.scene s).library = l)
    (h : ∀ {x s} (u : Library.User), u ∈ l.tables.chosen? g.user → x.userId = u.id → (S.scene s).library = l →
      (S.scene s).session = some x → S.Alike t s t' s) :
    S.Alike (forUser g.user t) s (forUser g.user t') s := by
  refine .after (leads_chosenSession hl) fun {x s'} ⟨hl, u, hu, hx⟩ => ?_
  refine .ask rfl (h u hu hx ?_ ?_) <;> rw [S.setSession]
  exact hl

end CommandLine

end LabelPlaylists

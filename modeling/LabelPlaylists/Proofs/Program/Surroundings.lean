import LabelPlaylists.Simulation.World

namespace LabelPlaylists

-- What a program finds and leaves: the open library, the session in use, and the calls of Spotify
-- that have been made, the last one at the end.
structure Scene where
  library : Library.Store
  session : Option Session
  calls   : List Spotify.Call

-- Whoever answers the requests of a program. Nothing is said about what Spotify and the token endpoint
-- answer, nor about how the clock goes on. The library performs what it is asked for; a search may
-- also be refused, so nothing is said about it here.
structure Surroundings (σ : Type) where
  answer     : (r : Request) → σ → r.Reply × σ
  scene      : σ → Scene
  clock      : σ → Moment
  library    : ∀ {c s}, (∀ u f, c ≠ .find u f) →
    ((answer (.library c) s).1, scene (answer (.library c) s).2)
      = (((scene s).library.perform (clock s) c).1,
         { scene s with library := ((scene s).library.perform (clock s) c).2 })
  call       : ∀ {token c s},
    scene (answer (.call token c) s).2 = { scene s with calls := (scene s).calls ++ [c] }
  grant      : ∀ {g s}, scene (answer (.grant g) s).2 = scene s
  now        : ∀ {s}, ((answer .now s).1, scene (answer .now s).2)
    = (if (clock s).inUtc.InRange then some (clock s).inUtc else none, scene s)
  log        : ∀ {r s}, scene (answer (.log r) s).2 = scene s
  session    : ∀ {s}, ((answer .session s).1, scene (answer .session s).2)
    = ((scene s).session, scene s)
  setSession : ∀ {x s}, scene (answer (.setSession x) s).2 = { scene s with session := some x }

namespace Program

variable {σ : Type} {answer : (r : Request) → σ → r.Reply × σ} {t t' : Program α} {f f' : α → Program β} {s s' : σ}

-- What is known of the first part of a program is made use of.

theorem run_bind_ok {a : α} (h : t.run answer s = (.ok a, s')) : (t >>= f).run answer s = (f a).run answer s' :=
  (run_bind ..).trans (by rw [h])

theorem run_bind_error {e : Failure} (h : t.run answer s = (.error e, s')) :
    (t >>= f).run answer s = (.error e, s') :=
  (run_bind ..).trans (by rw [h])

theorem run_bind_congr (ht : t.run answer s = t'.run answer s)
    (hf : ∀ a s, (f a).run answer s = (f' a).run answer s) : (t >>= f).run answer s = (t' >>= f').run answer s := by
  refine (run_bind ..).trans (Eq.trans ?_ (run_bind ..).symm)
  rw [ht]
  split
  case h_1 => exact hf _ _
  case h_2 => rfl

theorem run_library {c : Library.Command} {a : c.Reply} (h : (answer (.library c) s).1 = .ok a) :
    (Program.library c).run answer s = (.ok a, (answer (.library c) s).2) := by
  rw [Program.library, run, h, run]

end Program

namespace Surroundings

variable {σ : Type} {S : Surroundings σ} {s : σ}

-- A program ends in a state and with a result as given, or it fails in a state as given.
def Leads (S : Surroundings σ) (t : Program α) (s : σ) (P : α → σ → Prop) (E : σ → Prop) : Prop :=
  match t.run S.answer s with
  | (.ok a, s')    => P a s'
  | (.error _, s') => E s'

namespace Leads

variable {P Q : α → σ → Prop} {E F : σ → Prop}

theorem done {a : α} (h : P a s) : S.Leads (.done a) s P E := h

theorem fail {e : Failure} (h : E s) : S.Leads (.fail e : Program α) s P E := h

theorem ask {r : Request} {next : r.Reply → Program α}
    (h : S.Leads (next (S.answer r s).1) (S.answer r s).2 P E) : S.Leads (.ask r next) s P E := h

theorem mono {t : Program α} (h : S.Leads t s P E) (hp : ∀ {a s}, P a s → Q a s)
    (he : ∀ {s}, E s → F s) : S.Leads t s Q F := by
  unfold Leads at *
  split <;> simp_all

theorem bind {t : Program α} {f : α → Program β} {Q : β → σ → Prop} (ht : S.Leads t s P E)
    (hf : ∀ {a s}, P a s → S.Leads (f a) s Q E) : S.Leads (t >>= f) s Q E := by
  show S.Leads (t.bind f) s Q E
  unfold Leads at ht ⊢
  rw [Program.run_bind]
  cases ho : t.run S.answer s
  case mk o s' =>
    rw [ho] at ht
    cases o
    case ok a    => exact hf ht
    case error e => exact ht

-- A program whose failure is looked at later.
theorem outcome {t : Program α} {P : Except Failure α → σ → Prop}
    (h : S.Leads t s (fun a => P (.ok a)) fun s => ∀ e, P (.error e) s) :
    S.Leads t.outcome s P E := by
  unfold Leads at *
  rw [Program.run_outcome]
  split at h <;> simp_all

-- What becomes of a program is one of the two.
theorem cases {t : Program α} (h : S.Leads t s P E) :
    (∃ a s', t.run S.answer s = (.ok a, s') ∧ P a s') ∨
    (∃ e s', t.run S.answer s = (.error e, s') ∧ E s') := by
  unfold Leads at h
  split at h
  case h_1 a s' ho => exact .inl ⟨a, s', ho, h⟩
  case h_2 e s' ho => exact .inr ⟨e, s', ho, h⟩

end Leads

-- A promise about the states that the surroundings come to.
def Keeps (S : Surroundings σ) (G : σ → Prop) : Prop := ∀ r s, G s → G (S.answer r s).2

end Surroundings

namespace Simulation.World

-- The calls that have been made in a world.
def calls (w : World) : List Spotify.Call :=
  w.events.reverse.filterMap fun
    | .call c => some c
    | _       => none

def scene (w : World) : Scene := ⟨w.library, w.session, w.calls⟩

-- The simulated world is one of many surroundings.
def surroundings : Surroundings World where
  answer     := reply
  scene      := scene
  clock      := clock
  library    := by
    intro c w h
    cases c
    case find u f => exact (h u f rfl).elim
    all_goals (unfold reply performed; cases w.searchFailure <;> rfl)
  call       := by intros; simp [reply, scene, calls, record]
  grant      := by
    intro g w
    rcases hg : w.grants with _ | ⟨found, grants⟩ <;> simp [reply, scene, calls, record, hg]
  now        := rfl
  log        := by intros; simp [reply, scene, calls, record, log]
  session    := rfl
  setSession := rfl

end Simulation.World

end LabelPlaylists

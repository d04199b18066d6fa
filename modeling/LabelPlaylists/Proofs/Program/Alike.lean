import LabelPlaylists.Proofs.Program.Run

namespace LabelPlaylists

namespace Request

-- Requests by which a program speaks, to whoever runs it or to the log.
def speaks : Request → Bool
  | .print _ | .complain _ | .log _ => true
  | _                               => false

-- Requests that are answered in the same way at any time.
def IsOneWay : Request → Prop
  | .print _ | .complain _ | .log _ | .closeLog | .closeLibrary => True
  | _                                                           => False

end Request

namespace Surroundings

variable {σ : Type} {S : Surroundings σ} {s s' : σ} {t t' : Program α} {f f' : α → Program β}

-- What has been said, in order.
def said (es : List Exchange) : List Request := (es.map (·.request)).filter Request.speaks

theorem said_append {es rest : List Exchange} : said (es ++ rest) = said es ++ said rest := by
  simp [said]

theorem said_cons {e : Exchange} {es : List Exchange} : said (e :: es) = said [e] ++ said es := by
  rw [← said_append]
  rfl

-- An operation of the library says nothing.
theorem trace_library {c : Library.Command} :
    said (S.trace (Program.library c) s).1 = [] ∧
      (S.trace (Program.library c) s).2.1 = (S.answer (.library c) s).1.mapError .library := by
  unfold Program.library trace
  cases (S.answer (.library c) s).1 <;> exact ⟨rfl, rfl⟩

theorem trace_bind : S.trace (t >>= f) s =
    match S.trace t s with
    | (es, .ok a, s')    => (es ++ (S.trace (f a) s').1, (S.trace (f a) s').2)
    | (es, .error e, s') => (es, .error e, s') := by
  show S.trace (t.bind f) s = _
  induction t generalizing s
  case done          => rfl
  case fail          => rfl
  case ask r next hi =>
    simp only [Program.bind, trace, hi]
    cases S.trace (next (S.answer r s).1) (S.answer r s).2
    case mk es e => rcases e with ⟨_ | _, _⟩ <;> rfl

theorem trace_outcome : S.trace t.outcome s = ((S.trace t s).1, .ok (S.trace t s).2.1, (S.trace t s).2.2) := by
  induction t generalizing s
  case done          => rfl
  case fail          => rfl
  case ask r next hi => simp only [Program.outcome, trace, hi]

theorem trace_run : (S.trace t s).2 = t.run S.answer s :=
  ((S.runs_trace t s).run_eq).symm

-- Two programs say the same and come to the same end, each from a state of its own.
def Alike (S : Surroundings σ) (t : Program α) (s : σ) (t' : Program α) (s' : σ) : Prop :=
  said (S.trace t s).1 = said (S.trace t' s').1 ∧ (S.trace t s).2.1 = (S.trace t' s').2.1

namespace Alike

theorem refl : S.Alike t s t s := ⟨rfl, rfl⟩

theorem ask {r : Request} {next next' : r.Reply → Program α} (hr : (S.answer r s).1 = (S.answer r s').1)
    (h : S.Alike (next (S.answer r s).1) (S.answer r s).2 (next' (S.answer r s).1) (S.answer r s').2) :
    S.Alike (.ask r next) s (.ask r next') s' := by
  unfold Alike at h ⊢
  simp only [trace, ← hr]
  exact ⟨said_cons.trans <| (congrArg _ h.left).trans said_cons.symm, h.right⟩

-- Programs that begin with the same steps.
theorem after {P : α → σ → Prop} {E : σ → Prop} (h : S.Leads t s P E)
    (hf : ∀ {a s'}, P a s' → S.Alike (f a) s' (f' a) s') : S.Alike (t >>= f) s (t >>= f') s := by
  unfold Alike
  rw [trace_bind, trace_bind]
  unfold Leads at h
  rw [← trace_run] at h
  rcases ht : S.trace t s with ⟨es, o, s'⟩
  rw [ht] at h
  cases o
  case error e => exact ⟨rfl, rfl⟩
  case ok a    =>
    have ha := hf h
    exact ⟨by rw [said_append, said_append, ha.left], ha.right⟩

-- What is the same in any state may go on in different ones.
theorem of_asks (h : t.Asks Request.IsOneWay) : S.Alike t s t s' := by
  induction h generalizing s s'
  case done          => exact ⟨rfl, rfl⟩
  case fail          => exact ⟨rfl, rfl⟩
  case ask r next hr _ hi =>
    refine .ask ?_ (hi _)
    cases r <;> first | rfl | exact hr.elim

theorem bind (h : S.Alike t s t' s') (hf : ∀ a, (f a).Asks Request.IsOneWay) :
    S.Alike (t >>= f) s (t' >>= f) s' := by
  unfold Alike at *
  rw [trace_bind, trace_bind]
  rcases ht : S.trace t s with ⟨es, o, s₁⟩
  rcases ht' : S.trace t' s' with ⟨es', o', s₂⟩
  rw [ht, ht'] at h
  obtain ⟨hs, rfl⟩ := h
  cases o
  case error e => exact ⟨hs, rfl⟩
  case ok a    =>
    have ha : S.Alike (f a) s₁ (f a) s₂ := of_asks (hf a)
    refine ⟨?_, ha.right⟩
    rw [said_append, said_append, ha.left]
    exact congrArg (· ++ _) hs

theorem outcome (h : S.Alike t s t' s') : S.Alike t.outcome s t'.outcome s' := by
  unfold Alike
  rw [trace_outcome, trace_outcome]
  exact ⟨h.left, congrArg Except.ok h.right⟩

end Alike

end Surroundings

end LabelPlaylists

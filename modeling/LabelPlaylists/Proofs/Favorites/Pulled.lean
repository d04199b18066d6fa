import LabelPlaylists.Proofs.Favorites.Carried
import LabelPlaylists.Proofs.Favorites.Sample
import LabelPlaylists.Proofs.Library.Partition

namespace LabelPlaylists

namespace Library

variable {t t' : Tables} {c : Command}

-- An operation that adds no album without a release date.
def Command.Dates : Command → Prop
  | .addAlbums albums => ∀ v ∈ albums, v.releasedOn.text?.isSome
  | _                 => True

theorem Command.Effect.dated (hc : c.Dates) (e : c.Effect t t') (h : t.Dated) : t'.Dated := by
  cases e
  case album hv _ _ => exact forall_mem_concat h (hc _ hv)
  all_goals exact h

end Library

namespace Favorites

open Criteria (Condition compile complement)
open Library (Store Tables)

-- The stores that pulls lead to, whatever Spotify answers and whatever else is done to them. No album
-- is added but by a pull.
inductive Pulled : Store → Prop
  | create {path} : Pulled (.create path)
  | reconnect {l : Store} : Pulled l → Pulled l.reconnect
  | perform {l : Store} {now c} :
    Pulled l → (∀ albums, c ≠ .addAlbums albums) → Pulled (l.perform now c).2
  | pull {σ} {S : Surroundings σ} {pages workers s es o s'} :
    Pulled (S.scene s).library → S.Runs (pull pages workers) s es o s' → Pulled (S.scene s').library

theorem Performs.dates {U : Int → Prop} {c : Library.Command} (h : Performs U c) : c.Dates := by
  cases h
  case addAlbums albums =>
    intro v hv
    obtain ⟨a, _, rfl⟩ := List.mem_map.mp hv
    rfl
  all_goals trivial

variable {l : Store}

-- What holds of empty tables and is kept by every single change holds of all stores that pulls lead to.
theorem Pulled.invariant {I : Tables → Prop} (h₀ : I { version := some Library.layoutVersion })
    (hi : ∀ {c : Library.Command} {t t'}, c.Dates → c.Effect t t' → I t → I t') (h : Pulled l) : I l.tables ∧ I l.saved := by
  induction h
  case create       => exact ⟨h₀, h₀⟩
  case reconnect hi => exact ⟨hi.right, hi.right⟩
  case perform c _ hc h =>
    have hc : c.Dates := by cases c <;> first | trivial | exact absurd rfl (hc _)
    exact Store.perform_keeps (fun e => hi hc e.effect) h.left h.right
  case pull hr h =>
    exact (Carries.of_effect fun hc => hi hc.dates).pull _ _ _ _ hr h

theorem Pulled.sound (h : Pulled l) : l.tables.Sound :=
  (h.invariant .empty fun _ e => e.sound).left

theorem Pulled.dated (h : Pulled l) : l.tables.Dated :=
  (h.invariant nofun fun hc e => e.dated hc).left

namespace Sample

-- A favorite from an album of which Spotify does not know the date.
def undated : Spotify.SavedTrack :=
  ⟨"2024-01-01T00:00:00Z", "t1", "Title", false, ⟨"album", "Album", "unknown", []⟩, [⟨"artist"⟩]⟩

def unpulled : Store :=
  ((Store.create "library").perform noon
    (.putUser ⟨.text "alice", .null, .text "token", .text "refresh"⟩ noon)).2

-- What a pull of the favorite leads to.
def pulled : Store :=
  ((account [undated] fun _ => true).trace (pull 1 1)
    ⟨unpulled, some ⟨1, "alice", "token", "refresh", noon⟩, []⟩).2.2.library

theorem pulled_pulled : Pulled pulled :=
  have h : Pulled unpulled := .perform .create fun _ h => by cases h
  .pull (S := account [undated] fun _ => true) (s := ⟨unpulled, some _, []⟩) h
    (Surroundings.runs_trace ..)

def older : String := "released < \"2000-01-01\""

def olderTokens : List Criteria.Token :=
  [⟨.word "released", 0, 8⟩, ⟨.operator .lt, 9, 1⟩, ⟨.string "2000-01-01", 11, 12⟩]

def olderTree : Criteria.Tree := .comparison ("released".map Char.toLower) .lt (.text "2000-01-01") 0

theorem tokens_older : Criteria.tokens older = .ok olderTokens :=
  eq_ok_of_toOption (by decide +kernel)

theorem derives_older {n : Nat} : Criteria.Derives n .expression olderTokens [olderTree] :=
  (Criteria.Derives.comparison rfl rfl .string).expression

theorem ofTree_older : Condition.ofTree olderTree = .ok (.day .released .lt "2000-01-01") := by
  have hn : "released".map Char.toLower = "released" := by decide +kernel
  have hd : (Day.ofIso? "2000-01-01").map (·.text) = some "2000-01-01" := by decide +kernel
  obtain ⟨d, hd, ht⟩ := Option.map_eq_some_iff.mp hd
  have hc : Condition.Comparison "released" .lt (.text "2000-01-01") (.day .released .lt d.text) :=
    .day rfl rfl hd
  rw [ht] at hc
  rw [olderTree, hn, Condition.ofTree]
  exact Condition.ofComparison_eq_ok_iff.mpr hc

theorem compile_older : compile older = .ok (.day .released .lt "2000-01-01") :=
  Criteria.compile_of_derives tokens_older derives_older ofTree_older

theorem compile_complement_older :
    compile (complement older) = .ok (.not (.day .released .lt "2000-01-01")) :=
  Criteria.compile_complement_of_derives tokens_older derives_older ofTree_older

-- The most negations of which the complement is accepted as well.
def deepest : Condition := Condition.not^[98] .isExplicit

end Sample

end Favorites

end LabelPlaylists

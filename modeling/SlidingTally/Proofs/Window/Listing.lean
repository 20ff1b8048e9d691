import SlidingTally.Proofs.Service.WriteProtocol
import SlidingTally.Proofs.Window.ExactCount
import SlidingTally.Proofs.Window.FanOut

/-!
# The list of keys of a window

What is read for a window is a list of keys: those of all its buckets, one after another and each
once. It ends with the bucket that an increment writes at that moment, so that an increment reads
itself back, and its length follows from how many widths fit into the window. Main statement:
`window_keys_ascending`.
-/

namespace SlidingTally

open Binary64 (ofNat ofInt is_ofInt)
open Bucket (wholeWidth wholeId wholeKey covered)

-- ---------------------------------------------------------------------------
-- Keys in the order of their ids
-- ---------------------------------------------------------------------------

namespace Bucket

section
variable {window T : Nat}

theorem getLast?_wholeKeys (hT : T ≤ 10 ^ 14) (hw : window ≤ 10 ^ 9) (name : String) :
    ((covered window T).map (wholeKey name window)).getLast? =
      some (Counter.currentBucket (ofNat T) name (ofNat window)) := by
  rw [List.getLast?_map, getLast?_covered, currentBucket_ofNat hT hw name]
  rfl

theorem length_covered_iff (window T : Nat) :
    ((covered window T).length = window / wholeWidth window + 1 ∨
      (covered window T).length = fanOut window) ∧
    ((covered window T).length = window / wholeWidth window + 1 ↔
      1000 * (window % wholeWidth window) ≤ T % (1000 * wholeWidth window)) := by
  rw [length_covered, fanOut_eq]
  split
  · rw [if_neg (show window % wholeWidth window ≠ 0 by omega)]
    omega
  · omega

end

end Bucket

-- ---------------------------------------------------------------------------
-- The bucket that is written
-- ---------------------------------------------------------------------------

namespace Counter

/-- Over any store, an increment at that moment writes no bucket but this one, and it asks for this
one to be incremented if the store is initialized. -/
def WritesAt (now : Binary64) (name : String) (window : Binary64) (bucket : String) : Prop :=
  ∀ (σ : Type) (w : Wiring σ) (maxTtl : Value) (s : σ), w.now = now →
    let outcome := increment w (.text name) (.number window) maxTtl s
    (∀ answer ∈ answers outcome.journal,
      answer.1.isRead = true ∨ answer.1 ∈ bucketWrites bucket (Bucket.ttl window maxTtl)) ∧
    ((∃ reply, (w.store w.now .isInitialized s).reply = .ok reply ∧ reply.truthy = true) →
      WasAsked (.increment (.text bucket)) outcome.journal)

theorem writesAt_currentBucket {window : Binary64}
    (hvalid : validWindow? (.number window) = some window) (now : Binary64) (name : String) :
    WritesAt now name window (currentBucket now name window) := by
  rintro σ w maxTtl s rfl
  exact ⟨(answers_increment w name window maxTtl s).isRead_or_mem,
    fun hinit => Admits.wasAsked_increment ⟨hinit, hvalid⟩ name maxTtl⟩

end Counter

/-- The keys of a window are those of all ids from the one that it begins in to the current one, in
ascending order and each once, and the last of them is the one that an increment writes. They are
one more than the widths that fit into the window, or one more than those that it takes to fill it,
according to the age of the current bucket. -/
theorem window_keys_ascending {window T : Nat} (hpos : 1 ≤ window) (hw : window ≤ 10 ^ 9)
    (hT : T ≤ 10 ^ 14) (name : String) :
    let width := wholeWidth window
    let current := Counter.currentBucket (ofNat T) name (ofNat window)
    Bucket.width (ofNat window) = ofNat width ∧ ∃ (ids : List Int) (keys : List String),
      Bucket.keys? name (ofNat window) (Bucket.range (Counter.seconds (ofNat T)) (ofNat window)) =
        some keys ∧
      keys = ids.map (fun id => Bucket.key name (ofNat window) (ofInt id)) ∧
      (∀ id, id ∈ ids ↔ (T - 1000 * window : Int) / (1000 * width) ≤ id ∧
        id ≤ (T : Int) / (1000 * width)) ∧
      ids.Pairwise (· < ·) ∧ keys.Nodup ∧
      keys.getLast? = some current ∧ Counter.WritesAt (ofNat T) name (ofNat window) current ∧
      (keys.length = window / width + 1 ∨ keys.length = (window + width - 1) / width + 1) ∧
      (keys.length = window / width + 1 ↔ 1000 * (window % width) ≤ T % (1000 * width)) := by
  intro width current
  have hsmall (id : Int) (hid : id ∈ covered window T) : id.natAbs < 2 ^ 53 := by
    have := Bucket.natAbs_of_mem_covered hT hw hid
    omega
  have hlast := Bucket.getLast?_wholeKeys hT hw name
  have hwrites := Counter.writesAt_currentBucket (validWindow?_ofNat hpos hw) (ofNat T) name
  have hlength : ((covered window T).map (wholeKey name window)).length = (covered window T).length :=
    List.length_map ..
  refine ⟨Bucket.width_ofNat (by omega), covered window T, _, Bucket.keys?_covered hT hw name,
    Bucket.map_wholeKey (by omega) hsmall name, fun _ => Bucket.mem_between,
    Bucket.pairwise_between, Bucket.nodup_map_wholeKey Bucket.nodup_covered name, hlast, hwrites, ?_⟩
  rw [hlength]
  exact Bucket.length_covered_iff window T

/-- Five minutes and a second leave one second of thirty buckets: the current bucket is younger than
that, and the window began before the epoch. -/
theorem window_keys_ascending_young : ∃ keys : List String,
    Bucket.keys? "a" (ofNat 301) (Bucket.range (Counter.seconds (ofNat 999)) (ofNat 301)) =
      some keys ∧ keys.Nodup ∧ keys.length = 32 ∧
    keys.getLast? = some (Counter.currentBucket (ofNat 999) "a" (ofNat 301)) := by
  obtain ⟨-, ids, keys, hkeys, -, -, -, hnodup, hlast, -, hlength, hyoung⟩ :=
    window_keys_ascending (T := 999) (show 1 ≤ 301 by decide) (by decide) (by decide) "a"
  have hwidth : wholeWidth 301 = 10 := by decide
  rw [hwidth] at hlength hyoung
  exact ⟨keys, hkeys, hnodup, by omega, hlast⟩

end SlidingTally

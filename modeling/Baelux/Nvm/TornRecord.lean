import Baelux.Nvm.ResetRecovery
import Baelux.Nvm.RoundTrip

/-! A save that stops early, and the record that the next start-up reads. -/

namespace Baelux.Nvm

open Effect Flash Eeprom

def reread (w : World) : Bool × World :=
  run (handle quiet) appZigbeeNvmRead (run (handle quiet) appZigbeeNvmInit w).2

/-- Either the old record, or the first `k` words of the new one followed, up to its length,
by what the store held: no word of the record says that the save is complete. -/
def OldOrTorn (m : Store) (old new got : Nat → Data) : Prop :=
  (∀ i < numWords (old 0), got i = old i) ∨
    ∃ k, 0 < k ∧ k ≤ numWords (new 0) ∧ (∀ i < k, got i = new i) ∧
      ∀ i, k ≤ i → i < numWords (new 0) → m i = some (got i)

variable {env : Env} {w t : World} {m : Store} {old new got : Nat → Data}

theorem visited_torn (honest : Honest env) (begins : Going True m new 0 { w with cache := new })
    (short : (new 0).toNat ≤ capacityBytes)
    (visit : t ∈ visited (handle env) appZigbeeNvmWrite { w with cache := new }) :
    Torn m new (numWords (new 0)) t.mem := by
  have save := wp_appZigbeeNvmWrite (w := { w with cache := new }) honest (fun _ => trivial) begins
    short
  exact wp_visited (wp_post save fun _ _ after => after.1) t visit

theorem Delivers.old_or_torn {k : Nat} (stores : Delivers m old)
    (small : k ≤ numWords (new 0)) (delivers : Delivers (stored m new k) got) :
    OldOrTorn m old new got := by
  by_cases none_written : k = 0
  · subst none_written
    rw [stored_zero] at delivers
    exact Or.inl (delivers.unique stores)
  · have written : ∀ i < k, i < numWords (got 0) → got i = new i := by
      intro i before inside
      have word := delivers.words i inside
      rw [stored, if_pos before] at word
      exact (Option.some.inj word).symm
    have head : got 0 = new 0 := written 0 (by omega) (numWords_pos delivers.fits)
    refine Or.inr ⟨k, by omega, small, ?_, ?_⟩
    · intro i before
      exact written i before (by rw [head]; omega)
    · intro i after inside
      have word := delivers.words i (by rwa [head])
      rwa [stored, if_neg (by omega)] at word

/-- A store that answers with some first words of the new record delivers no other mix. -/
private theorem wp_read_torn {k : Nat} (serves : Serves nvmBank (stored m new k) t)
    (stores : Delivers m old) (old_short : (old 0).toNat ≤ capacityBytes)
    (short : (new 0).toNat ≤ capacityBytes) (small : k ≤ numWords (new 0)) :
    wp (handle quiet) (Crash fun _ => True)
      (fun found u => found = true → OldOrTorn m old new u.cache) appZigbeeNvmRead t := by
  have fits : ∀ length, stored m new k 0 = some length → length.toNat ≤ stPersistMaxAllocSz →
      numWords length ≤ nvmBank.capacity := by
    intro length first _
    rw [stored] at first
    split at first
    · obtain rfl := Option.some.inj first
      exact (numWords_bounds short).2
    · rw [stores.length] at first
      obtain rfl := Option.some.inj first
      exact (numWords_bounds old_short).2
  apply wp_post (wp_appZigbeeNvmRead (Serves.answering serves) fits (by decide))
  intro found u read delivered
  exact stores.old_or_torn small (read.1 delivered)

private theorem wp_read_empty (idle : Idle nvmBank (fun _ => none) t) :
    wp (handle quiet) (Crash fun _ => True)
      (fun found u => found = true → OldOrTorn m old new u.cache) appZigbeeNvmRead t := by
  rcases idle with ⟨img, cur, c, ws, live, _⟩
  apply wp_post (wp_appZigbeeNvmRead (Serves.answering live.serves)
    (fun length first _ => by cases first) (by decide))
  intro found u read delivered
  have word := (read.1 delivered).length
  cases word

/-- A save of a record over another one may stop anywhere: at a reset between any two
operations or at an operation that a core refuses. The next start-up reads the old record,
the new one, a torn one, or none. -/
theorem torn_record (honest : Honest env) (mounted : Idle nvmBank m w ∨ Pending nvmBank m w)
    (stores : Delivers m old) (old_short : (old 0).toNat ≤ capacityBytes)
    (short : (new 0).toNat ≤ capacityBytes)
    (visit : t ∈ visited (handle env) appZigbeeNvmWrite { w with cache := new })
    (u : World) (reset : u.mem = t.mem) :
    (reread u).1 = true → OldOrTorn m old new (reread u).2.cache := by
  have begins : Going True m new 0 { w with cache := new } := by
    refine ⟨rfl, ?_⟩
    rw [stored_zero]
    rcases mounted with idle | waiting
    · exact Or.inl (idle.congr rfl rfl)
    · exact Or.inr ⟨trivial, waiting.congr rfl rfl⟩
  rcases visited_torn honest begins short visit with ⟨k, inside, img, holds, interrupted⟩
  have outcome := recovery_outcome holds interrupted
  have start : wp (handle quiet) (Crash fun _ => True) (fun _ t =>
      wp (handle quiet) (Crash fun _ => True)
        (fun found u => found = true → OldOrTorn m old new u.cache) appZigbeeNvmRead t)
      appZigbeeNvmInit u := by
    rw [appZigbeeNvmInit, wp_bind]
    by_cases recoverable : Recoverable nvmBank t.mem
    · apply wp_post (outcome.recovers recoverable u reset)
      rintro status v (⟨rfl, before | after⟩ | refused)
      · exact wp_read_torn before stores old_short short (by omega)
      · exact wp_read_torn after stores old_short short inside
      · exact absurd refused not_refused
    · apply wp_post (outcome.fails recoverable u reset)
      rintro status v rfl
      rw [if_pos (by decide)]
      apply wp_post (wp_format (b := nvmBank) quiet_honest fun _ => (trivial : True))
      rintro status x (⟨rfl, formatted, _⟩ | refused)
      · exact wp_read_empty formatted
      · exact absurd refused not_refused
  have read := wp_run start
  exact wp_run read

/-! ## A record of which only some words are new -/

def eightBytes (word : Data) : Nat → Data := fun i => if i = 0 then 8 else word

def firstSaved : World :=
  saved (run (handle quiet) (eeeInit nvmBank.nb true nvmBank.base) (powerUp fun _ => eeErased)).2
    (eightBytes 1)

private theorem eightBytes_words (word : Data) : numWords (eightBytes word 0) = 3 := by
  change numWords 8 = 3
  decide

private theorem first_saved : Idle nvmBank (stored (fun _ => none) (eightBytes 1) 3) firstSaved ∧
    firstSaved.var.nbWrittenElements = 3 ∧ firstSaved.var.currentWritePage < nvmBank.nb := by
  obtain ⟨_, idle, start⟩ := format_ready (b := nvmBank) (powerUp fun _ => eeErased)
  have count := congrArg EeVar.nbWrittenElements start
  have page := congrArg EeVar.currentWritePage start
  rw [firstSaved, saved, run_appZigbeeNvmWrite, eightBytes_words]
  generalize (run (handle quiet) (eeeInit nvmBank.nb true nvmBank.base)
    (powerUp fun _ => eeErased)).2 = w at idle count page
  have begins : Idle nvmBank (stored (fun _ => none) (eightBytes 1) 0)
      { w with cache := eightBytes 1 } := by
    rw [stored_zero]
    exact idle.congr rfl rfl
  obtain ⟨t, after, appended, runs, _⟩ := run_writeLoop_room 3 0 0 begins rfl (by decide) (by
    rw [count]
    decide)
  rw [show run (handle quiet) (writeLoop 3 0 .ok) { w with cache := eightBytes 1 } = _ from runs]
  refine ⟨after, ?_, ?_⟩
  · exact appended.count.trans (by rw [count]; rfl)
  · exact appended.pool.mpr (by rw [page]; decide)

private theorem reread_lower (idle : Idle nvmBank m t) (lower : t.var.currentWritePage < nvmBank.nb)
    (delivers : Delivers m got) (short : (got 0).toNat ≤ capacityBytes) :
    (reread (powerUp t.mem)).1 = true ∧
      ∀ i < numWords (got 0), (reread (powerUp t.mem)).2.cache i = got i := by
  rcases idle with ⟨img, cur, c, ws, live, vacant⟩
  have here : cur = .lower := by
    rw [← cursor_pool live.shape.inside ws.length, ← live.var]
    exact lower
  subst here
  have next : pageState t.mem (nvmBank.page 1) = .erased := by
    have upper := live.holds.state .upper 0 nvmBank.pos
    exact upper.trans (vacant.state 0 nvmBank.pos)
  have mounted := wp_run (wp_appZigbeeNvmInit_idle (w := powerUp t.mem) live.holds live.shape vacant
    live.answers next)
  have back := reads_back mounted.2.1 delivers short
  rw [ReadsBack] at back
  rw [reread]
  exact back

/-- The words of `eightBytes 2`, of `eightBytes 2` and of `eightBytes 1`. -/
def mixedRecord : Nat → Data := fun i => if i = 0 then 8 else if i = 1 then 2 else 1

private theorem mixed_delivered :
    Delivers (stored (stored (fun _ => none) (eightBytes 1) 3) (eightBytes 2) 2) mixedRecord := by
  refine ⟨by decide, by decide, ?_⟩
  intro i inside
  have words : numWords (mixedRecord 0) = 3 := by decide
  rw [words] at inside
  obtain rfl | rfl | rfl : i = 0 ∨ i = 1 ∨ i = 2 := by omega
  · rfl
  · rfl
  · rfl

/-- The reset falls between the second and the third word of `eightBytes 2`. -/
private theorem stopped_after_two :
    ∃ t ∈ visited (handle quiet) appZigbeeNvmWrite { firstSaved with cache := eightBytes 2 },
      (reread (powerUp t.mem)).1 = true ∧
        ∀ i < 3, (reread (powerUp t.mem)).2.cache i = mixedRecord i := by
  rcases first_saved with ⟨idle, count, lower⟩
  generalize firstSaved = w at idle count lower
  have begins : Idle nvmBank (stored (stored (fun _ => none) (eightBytes 1) 3) (eightBytes 2) 0)
      { w with cache := eightBytes 2 } := by
    rw [stored_zero]
    exact idle.congr rfl rfl
  obtain ⟨t, after, appended, _, visits⟩ := run_writeLoop_room 2 1 0 begins rfl (by decide) (by
    rw [count]
    decide)
  refine ⟨t, ?_, reread_lower after (appended.pool.mpr lower) mixed_delivered (by decide)⟩
  apply visited_appZigbeeNvmWrite
  rw [show numWords _ = 2 + 1 from eightBytes_words 2]
  exact visits t (visited_start _ t)

theorem torn_record_stopped :
    ∃ t ∈ visited (handle quiet) appZigbeeNvmWrite { firstSaved with cache := eightBytes 2 },
      (reread (powerUp t.mem)).1 = true ∧ (reread (powerUp t.mem)).2.cache 1 = 2 ∧
        OldOrTorn (stored (fun _ => none) (eightBytes 1) 3) (eightBytes 1) (eightBytes 2)
          (reread (powerUp t.mem)).2.cache := by
  have real : 1 ≤ (eightBytes 1 0).toNat := by decide
  have short : ∀ word, (eightBytes word 0).toNat ≤ capacityBytes := fun _ => by
    change (8 : Data).toNat ≤ capacityBytes
    decide
  obtain ⟨t, visit, returns, words⟩ := stopped_after_two
  exact ⟨t, visit, returns, words 1 (by decide), torn_record quiet_honest (Or.inl first_saved.1)
    (stored_delivers (fun _ => none) real (short 1)) (short 1) (short 2) visit (powerUp t.mem) rfl
    returns⟩

theorem mixed_record_read :
    ∃ t ∈ visited (handle quiet) appZigbeeNvmWrite { firstSaved with cache := eightBytes 2 },
      (reread (powerUp t.mem)).1 = true ∧ (reread (powerUp t.mem)).2.cache 0 = 8 ∧
        (reread (powerUp t.mem)).2.cache 1 = 2 ∧ (reread (powerUp t.mem)).2.cache 2 = 1 := by
  obtain ⟨t, visit, returns, words⟩ := stopped_after_two
  exact ⟨t, visit, returns, words 0 (by decide), words 1 (by decide), words 2 (by decide)⟩

end Baelux.Nvm

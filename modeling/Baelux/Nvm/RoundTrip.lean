import Baelux.Eeprom.Adoption
import Baelux.Nvm.BankConfinement

/-! Saving records one after another and reading the last one back, for records of
every length that the persistence layer accepts. -/

namespace Baelux.Nvm

open Effect Flash Eeprom AppendLog

def saved (w : World) (record : Nat → Data) : World :=
  (run (handle quiet) appZigbeeNvmWrite { w with cache := record }).2

def ReadsBack (record : Nat → Data) (w : World) : Prop :=
  (run (handle quiet) appZigbeeNvmRead w).1 = true ∧
    ∀ i < numWords (record 0), (run (handle quiet) appZigbeeNvmRead w).2.cache i = record i

def EachReadsBack : List (Nat → Data) → World → Prop
  | [], _ => True
  | record :: rest, w => ReadsBack record (saved w record) ∧ EachReadsBack rest (saved w record)

/-- Records of 1 to `limit` bytes survive being saved after any others, from any sound flash. -/
def RoundTrips (limit : Nat) : Prop :=
  ∀ w : World, SoundFlash nvmBank w.mem → ∀ records : List (Nat → Data),
    (∀ record ∈ records, 1 ≤ (record 0).toNat ∧ (record 0).toNat ≤ limit) →
      EachReadsBack records (run (handle quiet) appZigbeeNvmInit w).2

variable {w : World} {m : Store} {record : Nat → Data}

theorem wp_appZigbeeNvmInit_idle {img : Image} {cur : Pool} {c : Nat} {ws : List Word}
    (holds : Holds nvmBank w.mem img) (shape : Shape nvmBank img cur .active c ws)
    (vacant : Vacant nvmBank img cur.other) (answers : Answers nvmBank ws m)
    (next : Next nvmBank w.mem cur) :
    wp (handle quiet) (Crash fun _ => True) (fun status t => status = .ok ∧ Idle nvmBank m t ∧
      t.var = cursor nvmBank cur c ws.length) appZigbeeNvmInit w := by
  have tidy : Tidy nvmBank img cur c := by
    intro i after small
    rw [nb_eq] at small
    omega
  rw [appZigbeeNvmInit, wp_bind]
  apply wp_post (wp_init_idle quiet_honest holds shape tidy vacant (Or.inr next))
  rintro status t (⟨rfl, mem, start⟩ | refused)
  · exact ⟨rfl, ⟨img, cur, c, ws, ⟨mem ▸ holds, shape, start, answers⟩, vacant⟩, start⟩
  · exact absurd refused not_refused

/-! ## Records that fit a pool -/

theorem saved_idle (idle : Idle nvmBank m w) (short : (record 0).toNat ≤ capacityBytes) :
    Idle nvmBank (stored m record (numWords (record 0))) (saved w record) := by
  have start : Going False m record 0 { w with cache := record } :=
    ⟨rfl, Or.inl (by rw [stored_zero]; exact idle.congr rfl rfl)⟩
  have save := wp_run (wp_appZigbeeNvmWrite (w := { w with cache := record }) quiet_honest
    (fun busy => busy quiet_free) start short)
  rcases (save.2 id).store with idle | ⟨waits, _⟩
  · exact idle
  · exact waits.elim

theorem stored_delivers (m : Store) (real : 1 ≤ (record 0).toNat)
    (short : (record 0).toNat ≤ capacityBytes) :
    Delivers (stored m record (numWords (record 0))) record where
  real := by
    intro zero
    rw [zero] at real
    exact absurd real (by decide)
  fits := Nat.le_trans short (by decide)
  words := by
    intro i inside
    rw [stored, if_pos inside]

theorem reads_back (idle : Idle nvmBank m w) (delivers : Delivers m record)
    (short : (record 0).toNat ≤ capacityBytes) : ReadsBack record w := by
  rcases idle with ⟨img, cur, c, ws, live, _⟩
  have fits : ∀ length, m 0 = some length → length.toNat ≤ stPersistMaxAllocSz →
      numWords length ≤ nvmBank.capacity := by
    intro length first _
    rw [delivers.length] at first
    obtain rfl := Option.some.inj first
    exact (numWords_bounds short).2
  have answering : Answering quiet m nvmBank.capacity w := Serves.answering live.serves
  have read := wp_run (wp_appZigbeeNvmRead answering fits (by decide))
  have found : (run (handle quiet) appZigbeeNvmRead w).1 = true := by
    by_contra missing
    exact read.2 (Bool.eq_false_iff.mpr missing) record delivers
  exact ⟨found, (read.1 found).unique delivers⟩

theorem init_idle {env : Env} (honest : Honest env) (free : Free env) (sound : SoundFlash nvmBank w.mem) :
    (run (handle env) appZigbeeNvmInit w).1 = .ok ∧
      ∃ m, Idle nvmBank m (run (handle env) appZigbeeNvmInit w).2 := by
  have mounts : wp (handle env) (Crash fun _ => True)
      (fun status t => status = .ok ∧ ∃ m, Idle nvmBank m t) appZigbeeNvmInit w := by
    rw [appZigbeeNvmInit, wp_bind]
    apply wp_post (wp_init_sound (b := nvmBank) rfl honest free sound)
    rintro status t (rfl | ⟨rfl, cur, ws, stands⟩)
    · rw [if_pos (by decide)]
      apply wp_post (wp_format (b := nvmBank) honest fun _ => (trivial : True))
      rintro status u (⟨rfl, formatted, _⟩ | refused)
      · exact ⟨rfl, _, formatted⟩
      · exact absurd free refused.2.1
    · exact ⟨rfl, _, stands.idle rfl⟩
  exact wp_run mounts

theorem idle_reads_back (records : List (Nat → Data)) (idle : Idle nvmBank m w)
    (short : ∀ record ∈ records, 1 ≤ (record 0).toNat ∧ (record 0).toNat ≤ capacityBytes) :
    EachReadsBack records w := by
  induction records generalizing w m with
  | nil => exact trivial
  | cons record rest ih =>
      have bounds := short record (List.mem_cons_self ..)
      have after := saved_idle idle bounds.2
      refine ⟨reads_back after (stored_delivers m bounds.1 bounds.2) bounds.2, ?_⟩
      exact ih after fun other later => short other (List.mem_cons_of_mem _ later)

def onePage (w : World) : Store := fun v =>
  latest decode (pageElements w.mem (w.var.flashAddr w.var.currentWritePage) eeNbMaxElt) v

theorem one_page_answering (room : HasRoom 0 w.var) (n : Nat) :
    Answering quiet (onePage w) n w := by
  intro t mem var v _ R result
  rcases room with ⟨k, ahead⟩
  have page := ahead.page
  have pages := ahead.nbPages
  rw [← var] at page pages
  have scan : elementAt t.mem t.var v t.var.currentWritePage = onePage w v := by
    rw [onePage, ← mem, ← var]
    obtain lower | upper : t.var.currentWritePage = 0 ∨ t.var.currentWritePage = 0 + 1 := by omega
    · rw [lower, elementAt]
    · have start : poolStart t.var (0 + 1) := Or.inr pages.symm
      rw [upper, elementAt, if_pos start, Option.or_none]
  rw [eeeRead, wp_bind, wp_getVar]
  refine ⟨trivial, wp_eeReadEl trivial (fun _ _ _ _ => trivial) ?_⟩
  rwa [scan]

theorem one_page_cramped (cache : Nat → Data) (long : eeNbMaxElt < numWords (cache 0)) :
    ¬ Delivers (onePage w) cache := by
  intro delivers
  have found : ∀ v ∈ List.range (eeNbMaxElt + 1), (latest decode (pageElements w.mem
      (w.var.flashAddr w.var.currentWritePage) eeNbMaxElt) v).isSome := by
    intro v member
    have inside := List.mem_range.mp member
    exact Option.isSome_of_eq_some (delivers.words v (by omega))
  have bound := length_le_of_bound _ _ List.nodup_range found
  rw [List.length_range, pageElements, List.length_map, List.length_range] at bound
  omega

/-- The last word of a record of 509 words finds the upper pool full, and the pool change
leaves the store on one of the two pages of the bank. -/
private theorem wp_overflow (room : HasRoom 0 w.var) (full : w.var.nbWrittenElements = 508)
    (upper : ¬ w.var.currentWritePage < nvmBank.nb) (status : Status) :
    wp (handle quiet) Inside (fun _ t => HasRoom 0 t.var) (writeLoop 1 508 status) w := by
  have pages : w.var.nbPages = 1 := by
    rcases room with ⟨k, ahead⟩
    exact ahead.nbPages
  have wraps : w.var.nextPool = 0 := by
    rw [EeVar.nextPool, pages]
    exact if_neg upper
  rw [writeLoop, wp_bind, wp_getCache]
  refine ⟨trivial, ?_⟩
  rw [wp_bind, eeeWrite, wp_traced, wp_bind, wp_getVar]
  refine ⟨trivial, trivial, ?_⟩
  rw [full, pages, if_neg (by decide)]
  apply wp_changePool_inside room (Or.inr wraps)
  intro verdict t after
  refine ⟨trivial, ?_⟩
  split
  · exact after
  split
  · rw [wp_bind]
    apply wp_eeeClean_inside after
    intro _ u same
    change HasRoom 0 u.var
    exact same ▸ after
  · exact after

/-- A record of 2029 bytes saved while the upper pool is in use and empty. -/
private theorem overflow_saved (idle : Idle nvmBank m w) (count : w.var.nbWrittenElements = 0)
    (upper : ¬ w.var.currentWritePage < nvmBank.nb) :
    HasRoom 0 (saved w fun _ => 2029).var := by
  have words : numWords 2029 = 508 + 1 := by decide
  have capacity : nvmBank.capacity = 508 := rfl
  have start : Idle nvmBank (stored m (fun _ => 2029) 0) { w with cache := fun _ => 2029 } := by
    rw [stored_zero]
    exact idle.congr rfl rfl
  obtain ⟨t, filled, appended, runs, _⟩ := run_writeLoop_room 508 1 0 start rfl
    (Nat.le_of_eq rfl) (by
      change w.var.nbWrittenElements + 508 ≤ nvmBank.capacity
      omega)
  have full : t.var.nbWrittenElements = 508 := by
    rw [appended.count]
    change w.var.nbWrittenElements + 508 = 508
    omega
  have after := wp_run (wp_overflow (idle_hasRoom filled) full
    (fun lower => upper (appended.pool.mp lower)) .ok)
  rw [Nat.zero_add] at runs
  rw [← runs] at after
  rw [saved, run_appZigbeeNvmWrite, words]
  exact after

private theorem upper_active_holds :
    Holds nvmBank upperActive.mem (Image.blank.setState .upper 0 .active) := by
  have blank : Holds nvmBank (fun _ => eeErased) Image.blank := by
    have erased := Holds.blank (b := nvmBank) fun _ => eeErased
    rwa [show erasedPages (fun _ => eeErased) (nvmBank.number 0) (2 * nvmBank.nb) =
      (fun _ => eeErased) from funext fun a => ite_self _] at erased
  have real : PageState.active ≠ .erased := by decide
  have step := blank.setState .upper nvmBank.pos real (by decide)
  have header : nvmBank.page (nvmBank.first .upper + 0) + PageState.active.index * hwFlashWidth -
      hwFlashWidth = nvmBank.page 1 + 8 := by decide
  rw [header] at step
  have content : programmed (fun _ => eeErased) (nvmBank.page 1 + 8) eeProgrammed =
      upperActive.mem := by
    funext a
    rw [programmed, if_pos (Or.inl rfl), Function.update_apply]
    rfl
  rwa [content] at step

private theorem upper_active_sound : SoundFlash nvmBank upperActive.mem := by
  have here : adopted nvmBank upperActive.mem = some (.active, .upper) := by decide +kernel
  have empty : ∀ pool, Filled nvmBank upperActive.mem pool [] :=
    fun pool => upper_active_holds.log pool [] rfl
  intro found same
  obtain rfl := Option.some.inj (here.symm.trans same)
  refine ⟨fun _ _ _ j inside _ => (empty .upper).content j inside,
    fun _ i inside => (empty .lower).content i inside, nofun⟩

def strayElement : World := powerUp fun a =>
  if a = nvmBank.page 0 + 8 then eeProgrammed
  else if a = nvmBank.slot .lower 5 then element 0 77
  else eeErased

/-- The stray element is read in place of the length that was saved. -/
example : (run (handle quiet) appZigbeeNvmInit strayElement).1 = .ok ∧
    (run (handle quiet) appZigbeeNvmRead
      (saved (run (handle quiet) appZigbeeNvmInit strayElement).2 fun _ => 4)).1 = false := by
  decide +kernel

/-- A flash whose upper page is ACTIVE and empty is mounted as it is. -/
private theorem upper_active_mounted :
    (run (handle quiet) appZigbeeNvmInit upperActive).1 = .ok ∧
      Idle nvmBank (fun _ => none) (run (handle quiet) appZigbeeNvmInit upperActive).2 ∧
      (run (handle quiet) appZigbeeNvmInit upperActive).2.var = cursor nvmBank .upper 0 0 := by
  have shape : Shape nvmBank (Image.blank.setState .upper 0 .active) .upper .active 0 [] := by
    refine ⟨rfl, nvmBank.pos, by simp, by simp, ?_, by simp [Image.setState], ?_⟩
    · intro i before
      omega
    · intro i after small
      rw [nb_eq] at small
      omega
  have vacant : Vacant nvmBank (Image.blank.setState .upper 0 .active) Pool.upper.other := by
    refine ⟨fun i _ => ?_, rfl⟩
    simp [Image.setState, Image.blank, Pool.other]
  have next : pageState upperActive.mem (nvmBank.page 2) = .erased := by decide
  exact wp_run (wp_appZigbeeNvmInit_idle upper_active_holds shape vacant (fun v _ => rfl) next)

theorem long_record_unread (room : HasRoom 0 w.var) (long : eeNbMaxElt < numWords (record 0)) :
    ¬ ReadsBack record w := by
  intro back
  have fits : ∀ length, onePage w 0 = some length → length.toNat ≤ stPersistMaxAllocSz →
      numWords length ≤ 2 ^ 16 := by
    intro length _ _
    unfold numWords
    exact Nat.le_of_lt (Nat.mod_lt _ (Nat.two_pow_pos 16))
  have read := wp_run (wp_appZigbeeNvmRead (one_page_answering room (2 ^ 16)) fits
    (Nat.two_pow_pos 16))
  have head := back.2 0 (by omega)
  exact one_page_cramped _ (by rwa [head]) (read.1 back.1)

private theorem upper_active_unread : ¬ ReadsBack (fun _ => 2029)
    (saved (run (handle quiet) appZigbeeNvmInit upperActive).2 fun _ => 2029) := by
  rcases upper_active_mounted with ⟨_, idle, start⟩
  have room := overflow_saved idle (congrArg EeVar.nbWrittenElements start) (by
    rw [congrArg EeVar.currentWritePage start]
    decide)
  have long : eeNbMaxElt < numWords 2029 := by decide
  exact long_record_unread room long

theorem long_records_lost {limit : Nat} (long : capacityBytes < limit) : ¬ RoundTrips limit := by
  intro trips
  have bytes : capacityBytes = 2028 := rfl
  have real : (2029 : Data).toNat = 2029 := rfl
  apply upper_active_unread
  apply (trips upperActive upper_active_sound [fun _ => 2029] ?_).1
  intro record member
  obtain rfl := List.mem_singleton.mp member
  rw [real]
  omega

/-- Records round trip exactly when none is longer than one pool of the compiled bank. -/
theorem round_trips_iff {limit : Nat} : RoundTrips limit ↔ limit ≤ capacityBytes := by
  constructor
  · intro trips
    by_contra long
    exact long_records_lost (by omega) trips
  · intro small w sound records bounds
    rcases init_idle quiet_honest quiet_free sound with ⟨_, m, idle⟩
    exact idle_reads_back records idle fun record member =>
      ⟨(bounds record member).1, Nat.le_trans (bounds record member).2 small⟩

end Baelux.Nvm

import ChipScore.Proofs.LoadedSong

/-!
# Where reading a module ends

The loops of the reader go by sizes that the module states. Each pass over a feature moves on, but a
pass over a macro moves on only if the macro's header or its steps have a size. A macro without both
is read again and again, and then there is neither a song nor a fault.
-/

namespace ChipScore.Tracker

/-! ## Results of scans -/

namespace Scan

variable {α β : Type} {scan : Scan α} {next : α → Scan β} {c : Cursor}

theorem bind_eq_of_error {fault : LoadFault} (h : scan c = .error fault) :
    (scan >>= next) c = .error fault := by
  change (scan c).bind _ = _
  rw [h]
  rfl

theorem bind_eq_ok {b : β} {last : Cursor} (h : (scan >>= next) c = .ok (b, last)) :
    ∃ a mid, scan c = .ok (a, mid) ∧ next a mid = .ok (b, last) := by
  cases hscan : scan c with
  | error fault =>
    rw [bind_eq_of_error hscan] at h
    cases h
  | ok result => exact ⟨result.1, result.2, rfl, by rwa [bind_eq_of_ok hscan] at h⟩

theorem bind_eq_error {fault : LoadFault} (h : (scan >>= next) c = .error fault) :
    scan c = .error fault ∨ ∃ a mid, scan c = .ok (a, mid) ∧ next a mid = .error fault := by
  cases hscan : scan c with
  | error other =>
    rw [bind_eq_of_error hscan] at h
    cases h
    exact .inl rfl
  | ok result => exact .inr ⟨result.1, result.2, rfl, by rwa [bind_eq_of_ok hscan] at h⟩

theorem bytes_eq_ok {count : Nat} {found : List UInt8} {last : Cursor}
    (h : bytes count c = .ok (found, last)) :
    c.offset + count ≤ c.stop ∧ found = c.rest.take count ∧ last = c.skip count := by
  unfold bytes Cursor.take? at h
  split at h
  · rename_i hsome
    split at hsome
    · cases hsome
      cases h
      exact ⟨‹_›, rfl, rfl⟩
    · cases hsome
  · cases h

theorem byte_eq_ok {b : UInt8} {last : Cursor} (h : byte c = .ok (b, last)) :
    c.rest.head? = some b ∧ last = c.skip 1 := by
  obtain ⟨found, mid, hfound, hb⟩ := bind_eq_ok h
  obtain ⟨hstop, rfl, rfl⟩ := bytes_eq_ok hfound
  cases hb
  refine ⟨?_, rfl⟩
  have hlength := c.length_rest
  cases hrest : c.rest with
  | nil =>
    rw [hrest, List.length_nil] at hlength
    omega
  | cons first rest => rfl

theorem word_eq_ok {n : Nat} {last : Cursor} (h : word c = .ok (n, last)) : last = c.skip 2 := by
  obtain ⟨found, mid, hfound, hb⟩ := bind_eq_ok h
  obtain ⟨-, -, rfl⟩ := bytes_eq_ok hfound
  cases hb
  rfl

end Scan

/-! ## What a scan reports -/

/-- A scan keeps to good places, and if it says that a macro is stuck then one is. -/
structure Reports {α : Type} (good : Cursor → Prop) (stuck : Nat → Prop) (scan : Scan α) :
    Prop where
  keeps {c next : Cursor} {a : α} (hc : good c) (h : scan c = .ok (a, next)) : good next
  stuck {c : Cursor} {offset : Nat} (hc : good c) (h : scan c = .error (.macroStuck offset)) :
    stuck offset

namespace Reports

variable {α β : Type} {good : Cursor → Prop} {stuck : Nat → Prop} {scan : Scan α}
  {next : α → Scan β}

theorem pure (a : α) : Reports good stuck (pure a : Scan α) where
  keeps hc h := by
    cases h
    exact hc
  stuck _ h := nomatch h

theorem throw {fault : LoadFault} (hfault : ∀ offset, fault ≠ .macroStuck offset) :
    Reports good stuck (throw fault : Scan α) where
  keeps _ h := nomatch h
  stuck _ h := by
    cases h
    exact absurd rfl (hfault _)

theorem throw_bind {fault : LoadFault} (hfault : ∀ offset, fault ≠ .macroStuck offset)
    (next : α → Scan β) : Reports good stuck (MonadExcept.throw fault >>= next) :=
  throw hfault

theorem set {place : Cursor} (h : good place) : Reports good stuck (set place : Scan PUnit) where
  keeps _ hset := by
    cases hset
    exact h
  stuck _ h := nomatch h

theorem bind (h : Reports good stuck scan) (hnext : ∀ a, Reports good stuck (next a)) :
    Reports good stuck (scan >>= next) where
  keeps hc hbind := by
    obtain ⟨a, mid, hscan, hlast⟩ := Scan.bind_eq_ok hbind
    exact (hnext a).keeps (h.keeps hc hscan) hlast
  stuck hc hbind := by
    obtain hscan | ⟨a, mid, hscan, hlast⟩ := Scan.bind_eq_error hbind
    · exact h.stuck hc hscan
    · exact (hnext a).stuck (h.keeps hc hscan) hlast

theorem get_bind {next : Cursor → Scan β} (h : ∀ c, good c → Reports good stuck (next c)) :
    Reports good stuck (get >>= next) where
  keeps hc hbind := (h _ hc).keeps hc hbind
  stuck hc hbind := (h _ hc).stuck hc hbind

theorem lift {x : Except LoadFault α}
    (h : ∀ offset, x = .error (.macroStuck offset) → stuck offset) :
    Reports good stuck (liftM x : Scan α) := by
  cases x with
  | ok a => exact .pure a
  | error fault =>
    constructor
    · intro c next a _ hx
      cases hx
    · intro c offset _ hx
      cases hx
      exact h offset rfl

theorem repeatFrom (h : Reports good stuck scan) (count : Nat) (done : List α) :
    Reports good stuck (Scan.repeatFrom scan count done) := by
  induction count generalizing done with
  | zero => exact .pure _
  | succ count ih => exact h.bind fun a => ih (a :: done)

theorem times (h : Reports good stuck scan) (count : Nat) :
    Reports good stuck (Scan.times count scan) :=
  h.repeatFrom count []

/-! ### Fields -/

variable (hgood : ∀ c count, good c → good (Cursor.skip count c))
include hgood

theorem bytes (count : Nat) : Reports good stuck (Scan.bytes count) where
  keeps hc h := by
    obtain ⟨-, -, rfl⟩ := Scan.bytes_eq_ok h
    exact hgood _ _ hc
  stuck _ h := by
    unfold Scan.bytes at h
    split at h <;> cases h

theorem byte : Reports good stuck Scan.byte := (bytes hgood 1).bind fun _ => .pure _

theorem word : Reports good stuck Scan.word := (bytes hgood 2).bind fun _ => .pure _

theorem long : Reports good stuck Scan.long := (bytes hgood 4).bind fun _ => .pure _

theorem float : Reports good stuck Scan.float := (long hgood).bind fun _ => .pure _

theorem skip (count : Nat) : Reports good stuck (Scan.skip count) :=
  (bytes hgood count).bind fun _ => .pure _

theorem text : Reports good stuck Scan.text where
  keeps hc h := by
    unfold Scan.text at h
    split at h
    · cases h
      exact hgood _ _ hc
    · cases h
  stuck _ h := by
    unfold Scan.text at h
    split at h <;> cases h

theorem block (id : String) : Reports good stuck (Scan.block id) := by
  refine .get_bind fun c hc => (bytes hgood 4).bind fun found => ?_
  dsimp only
  split
  · apply Reports.throw_bind
    exact nofun
  · exact (long hgood).bind fun _ => .get_bind fun _ _ => .pure _

end Reports

/-! ## Passes of a loop -/

/-- So many passes of a loop, from the place where the first one starts to the place after the last
one. -/
def Passes (pass : Cursor → Cursor → Prop) : Nat → Cursor → Cursor → Prop
  | 0, c, last => last = c
  | n + 1, c, last => ∃ next, pass c next ∧ Passes pass n next last

/-- The loop goes round for ever. -/
def Endless (pass : Cursor → Cursor → Prop) (c : Cursor) : Prop :=
  ∃ places : Nat → Cursor, places 0 = c ∧ ∀ n, pass (places n) (places (n + 1))

section Passes

variable {pass : Cursor → Cursor → Prop} {stop n : Nat} {c next last : Cursor}

theorem endless_of_self (h : pass c c) : Endless pass c := ⟨fun _ => c, rfl, fun _ => h⟩

theorem passes_of_self (h : pass c c) (n : Nat) : Passes pass n c c := by
  induction n with
  | zero => rfl
  | succ n ih => exact ⟨c, h, ih⟩

theorem Endless.cons (h : pass c next) (hnext : Endless pass next) : Endless pass c := by
  obtain ⟨places, rfl, hplaces⟩ := hnext
  refine ⟨fun n => n.casesOn c places, rfl, ?_⟩
  rintro (_ | n)
  · exact h
  · exact hplaces n

theorem Passes.endless (h : Passes pass n c last) (hlast : Endless pass last) : Endless pass c := by
  induction n generalizing c with
  | zero =>
    cases h
    exact hlast
  | succ n ih =>
    obtain ⟨next, hnext, hrest⟩ := h
    exact (ih hrest).cons hnext

theorem Passes.keeps {good : Cursor → Prop} (hpass : ∀ c next, good c → pass c next → good next)
    (h : Passes pass n c last) (hc : good c) : good last := by
  induction n generalizing c with
  | zero =>
    cases h
    exact hc
  | succ n ih =>
    obtain ⟨next, hnext, hrest⟩ := h
    exact ih hrest (hpass c next hc hnext)

theorem Endless.tail (h : Endless pass c) : ∃ next, pass c next ∧ Endless pass next := by
  obtain ⟨places, rfl, hplaces⟩ := h
  exact ⟨places 1, hplaces 0, fun n => places (n + 1), rfl, fun n => hplaces (n + 1)⟩

/-- A loop that starts no pass at its stop and moves on with each pass has at most one pass for each
place before the stop. A pass that does not move on is one of an endless loop. -/
theorem passes_le
    (hpass : ∀ c next, pass c next → c.offset < stop ∧ (c.offset < next.offset ∨ next = c))
    (h : Passes pass n c last) :
    n ≤ stop - c.offset ∨ ∃ place, pass place place ∧ Endless pass c := by
  induction n generalizing c with
  | zero => exact .inl (Nat.zero_le _)
  | succ n ih =>
    obtain ⟨next, hnext, hrest⟩ := h
    obtain ⟨hstop, hmoves | rfl⟩ := hpass c next hnext
    · obtain hle | ⟨place, hplace, hendless⟩ := ih hrest
      · left
        omega
      · exact .inr ⟨place, hplace, hendless.cons hnext⟩
    · exact .inr ⟨next, hnext, endless_of_self hnext⟩

end Passes

namespace LoadedInstrument

theorem scanFeature_eq (i : LoadedInstrument) : i.scanFeature = (do
    let code ← Scan.bytes 2
    if code = Utf8.encode "EN" then return none
    let size ← Scan.word
    let body ← get
    let taken ← i.feature code size
    set (body.skip size)
    return some taken : Scan (Option LoadedInstrument)) := by
  funext c
  unfold scanFeature
  split
  · rename_i hcode
    exact (Scan.bind_eq_of_error hcode).symm
  · rename_i code sized hcode
    rw [bind_eq_of_ok hcode]
    split_ifs
    · rfl
    · split
      · rename_i hsize
        exact (Scan.bind_eq_of_error hsize).symm
      · rename_i size body hsize
        rw [bind_eq_of_ok hsize, Scan.get_bind]
        split
        · rename_i hfeature
          exact (Scan.bind_eq_of_error hfeature).symm
        · rename_i taken _ hfeature
          change i.feature code size body = _ at hfeature
          rw [bind_eq_of_ok hfeature]
          rfl

/-- A feature was read, and the loop over features goes on after it. -/
def FeaturePass (stop : Nat) (c next : Cursor) : Prop :=
  c.offset + 2 ≤ stop ∧ ∃ i taken, scanFeature i c = .ok (some taken, next)

/-- A macro was read, and the loop over macros goes on after it. -/
def MacroPass (stop headerSize : Nat) (c next : Cursor) : Prop :=
  c.offset < stop ∧ ∃ found, scanMacro headerSize c = .ok (some found, next)

section Loops

variable {stop headerSize : Nat} {c next : Cursor}

theorem FeaturePass.offset_le (h : FeaturePass stop c next) : c.offset + 4 ≤ next.offset := by
  obtain ⟨-, i, taken, hscan⟩ := h
  rw [scanFeature_eq] at hscan
  obtain ⟨code, sized, hcode, hscan⟩ := Scan.bind_eq_ok hscan
  obtain ⟨-, -, rfl⟩ := Scan.bytes_eq_ok hcode
  split at hscan
  · cases hscan
  · obtain ⟨size, body, hsize, hscan⟩ := Scan.bind_eq_ok hscan
    rw [Scan.get_bind] at hscan
    obtain rfl := Scan.word_eq_ok hsize
    obtain ⟨_, _, -, hscan⟩ := Scan.bind_eq_ok hscan
    cases hscan
    simp only [Cursor.offset_skip]
    omega

theorem scanMacro_eq_ok {found : UInt8 × VolumeMacro}
    (h : scanMacro headerSize c = .ok (some found, next)) :
    ∃ length width, c.rest[1]? = some length ∧ 0 < width ∧
      c.offset + (headerSize + length.toNat * width) ≤ c.stop ∧
      next = c.skip (headerSize + length.toNat * width) := by
  unfold scanMacro at h
  rw [Scan.get_bind] at h
  obtain ⟨code, afterCode, hcode, h⟩ := Scan.bind_eq_ok h
  obtain ⟨-, rfl⟩ := Scan.byte_eq_ok hcode
  split at h
  · cases h
  · obtain ⟨length, afterLength, hlength, h⟩ := Scan.bind_eq_ok h
    obtain ⟨hhead, rfl⟩ := Scan.byte_eq_ok hlength
    obtain ⟨_, _, -, h⟩ := Scan.bind_eq_ok h
    obtain ⟨release, _, -, h⟩ := Scan.bind_eq_ok h
    obtain ⟨_, _, -, h⟩ := Scan.bind_eq_ok h
    obtain ⟨form, _, -, h⟩ := Scan.bind_eq_ok h
    rw [Scan.set_bind] at h
    obtain ⟨bytes, _, hbytes, h⟩ := Scan.bind_eq_ok h
    obtain ⟨hstop, -, rfl⟩ := Scan.bytes_eq_ok hbytes
    cases h
    refine ⟨length, stepWidth form, ?_, ?_, ?_, Cursor.skip_skip _ _ _⟩
    · rwa [Cursor.rest_skip, List.head?_drop] at hhead
    · unfold stepWidth
      split <;> omega
    · rw [← Nat.add_assoc]
      exact hstop

/-- Neither the header nor the steps of the macro ahead have a size. -/
def Sizeless (headerSize : Nat) (c : Cursor) : Prop := headerSize = 0 ∧ c.rest[1]? = some 0

theorem MacroPass.moves (h : MacroPass stop headerSize c next) :
    c.offset < next.offset ∧ next.rest.length < c.rest.length ∨
      Sizeless headerSize c ∧ next = c := by
  obtain ⟨-, found, hscan⟩ := h
  obtain ⟨length, width, hlength, hwidth, hstop, rfl⟩ := scanMacro_eq_ok hscan
  have hrest := c.length_rest
  rw [Cursor.offset_skip, Cursor.rest_skip, List.length_drop]
  by_cases hsize : headerSize + length.toNat * width = 0
  · right
    obtain ⟨hheader, hsteps⟩ := Nat.add_eq_zero_iff.mp hsize
    have hzero : length.toNat = 0 := by
      rcases Nat.mul_eq_zero.mp hsteps with hzero | hzero
      · exact hzero
      · omega
    rw [hsize]
    refine ⟨⟨hheader, ?_⟩, rfl⟩
    rw [hlength, ← UInt8.toNat_inj.mp (hzero.trans UInt8.toNat_zero.symm)]
  · left
    omega

theorem reports_scanMacro {good : Cursor → Prop} {stuck : Nat → Prop}
    (hgood : ∀ c count, good c → good (Cursor.skip count c)) :
    Reports good stuck (scanMacro headerSize) := by
  refine .get_bind fun c hc => (Reports.byte hgood).bind fun code => ?_
  split
  · exact .pure _
  · refine (Reports.byte hgood).bind fun length => (Reports.skip hgood 1).bind fun _ =>
      (Reports.byte hgood).bind fun release => (Reports.skip hgood 1).bind fun _ =>
      (Reports.byte hgood).bind fun form => (Reports.set (hgood c headerSize hc)).bind fun _ =>
      (Reports.bytes hgood _).bind fun bytes => .pure _

theorem scanMacro_ne_stuck (offset : Nat) :
    scanMacro headerSize c ≠ .error (.macroStuck offset) := by
  have hreports : Reports (fun _ => True) (fun _ => False) (scanMacro headerSize) :=
    reports_scanMacro fun _ _ _ => trivial
  exact hreports.stuck trivial

theorem macrosFrom_stuck {found : Option VolumeMacro} {offset : Nat}
    (h : macrosFrom stop headerSize found c = .error (.macroStuck offset)) :
    ∃ n place, Passes (MacroPass stop headerSize) n c place ∧ place.offset = offset ∧
      Sizeless headerSize place ∧ MacroPass stop headerSize place place := by
  fun_induction macrosFrom stop headerSize found c with
  | case1 found c _ fault hscan =>
    cases h
    exact absurd hscan (scanMacro_ne_stuck _)
  | case2 => cases h
  | case3 found c hstop code m next hscan _ ih =>
    obtain ⟨n, place, hpasses, hplace⟩ := ih h
    exact ⟨n + 1, place, ⟨next, ⟨hstop, _, hscan⟩, hpasses⟩, hplace⟩
  | case4 found c hstop code m next hscan hlength =>
    cases h
    have hpass : MacroPass stop headerSize c next := ⟨hstop, _, hscan⟩
    -- A pass that does not move on comes back to its macro, so all passes after it are the same.
    obtain ⟨-, hshorter⟩ | ⟨hsizeless, rfl⟩ := hpass.moves
    · exact absurd hshorter hlength
    · exact ⟨0, next, rfl, rfl, hsizeless, hpass⟩
  | case5 => cases h

theorem macrosFrom_stuck_iff {found : Option VolumeMacro} :
    (∃ offset, macrosFrom stop headerSize found c = .error (.macroStuck offset)) ↔
      Endless (MacroPass stop headerSize) c := by
  constructor
  · rintro ⟨offset, h⟩
    obtain ⟨n, place, hpasses, -, -, hplace⟩ := macrosFrom_stuck h
    exact hpasses.endless (endless_of_self hplace)
  · intro h
    fun_induction macrosFrom stop headerSize found c with
    | case1 found c _ fault hscan =>
      obtain ⟨next, ⟨-, taken, hscan'⟩, -⟩ := h.tail
      cases hscan.symm.trans hscan'
    | case2 found c _ next hscan =>
      obtain ⟨next, ⟨-, taken, hscan'⟩, -⟩ := h.tail
      cases hscan.symm.trans hscan'
    | case3 found c _ code m next hscan _ ih =>
      obtain ⟨next', ⟨-, taken, hscan'⟩, hnext⟩ := h.tail
      cases hscan.symm.trans hscan'
      exact ih hnext
    | case4 => exact ⟨_, rfl⟩
    | case5 found c hstop =>
      obtain ⟨next, ⟨hstart, -⟩, -⟩ := h.tail
      exact absurd hstart hstop

end Loops

end LoadedInstrument

/-! ## Whole modules -/

/-- The cursor reads the data up to its end. -/
def InData (data : List UInt8) (c : Cursor) : Prop := c = .ofOffset data c.offset

theorem inData_ofOffset (data : List UInt8) (offset : Nat) :
    InData data (.ofOffset data offset) := rfl

theorem InData.skip {data : List UInt8} (c : Cursor) (count : Nat) (h : InData data c) :
    InData data (c.skip count) := by
  unfold InData at h ⊢
  rw [h]
  simp [Cursor.skip, Cursor.ofOffset]

/-- A macro at this offset of the data has no size, and a loop over macros comes back to it with every
pass. -/
def StuckAt (data : List UInt8) (offset : Nat) : Prop :=
  LoadedInstrument.Sizeless 0 (.ofOffset data offset) ∧
    ∃ stop, LoadedInstrument.MacroPass stop 0 (.ofOffset data offset) (.ofOffset data offset)

/-- The scan says that a macro is stuck only where this is so. -/
abbrev Tells {α : Type} (data : List UInt8) (scan : Scan α) : Prop :=
  Reports (InData data) (StuckAt data) scan

namespace LoadedInstrument

variable {data : List UInt8} {offset stop headerSize : Nat} {c : Cursor}

theorem tells_scanVoice : Tells data scanVoice :=
  (Reports.skip InData.skip 1).bind fun _ => (Reports.byte InData.skip).bind fun _ =>
    (Reports.skip InData.skip 3).bind fun _ => (Reports.bytes InData.skip 8).bind fun _ =>
    (Reports.bytes InData.skip 8).bind fun _ => (Reports.bytes InData.skip 8).bind fun _ =>
    (Reports.bytes InData.skip 8).bind fun _ => .pure _

theorem stuckAt_of_macrosFrom {found : Option VolumeMacro} (hc : InData data c)
    (h : macrosFrom stop headerSize found c = .error (.macroStuck offset)) :
    StuckAt data offset := by
  obtain ⟨n, place, hpasses, rfl, hsizeless, hpass⟩ := macrosFrom_stuck h
  have hplace : InData data place := by
    apply hpasses.keeps _ hc
    rintro c next hc ⟨-, taken, hscan⟩
    obtain ⟨_, _, -, -, -, rfl⟩ := scanMacro_eq_ok hscan
    exact hc.skip _ _
  have hheader : headerSize = 0 := hsizeless.1
  subst hheader
  unfold StuckAt
  rw [← show place = .ofOffset data place.offset from hplace]
  exact ⟨hsizeless, stop, hpass⟩

theorem tells_scanMacros : Tells data (scanMacros stop) :=
  (Reports.word InData.skip).bind fun _ => .get_bind fun _ hc =>
    .lift fun _ => stuckAt_of_macrosFrom hc

theorem tells_feature (i : LoadedInstrument) (code : List UInt8) (size : Nat) :
    Tells data (i.feature code size) := by
  unfold feature
  split_ifs
  · exact (Reports.text InData.skip).bind fun _ => .pure _
  · exact tells_scanVoice.bind fun _ => .pure _
  · exact .get_bind fun c hc => tells_scanMacros.bind fun _ => .pure _
  · exact .pure _

theorem tells_scanFeature (i : LoadedInstrument) : Tells data i.scanFeature := by
  rw [scanFeature_eq]
  refine (Reports.bytes InData.skip 2).bind fun code => ?_
  split
  · exact .pure _
  · exact (Reports.word InData.skip).bind fun size => .get_bind fun body hbody =>
      (tells_feature i code size).bind fun taken =>
      (Reports.set (hbody.skip body size)).bind fun _ => .pure _

theorem stuckAt_of_featuresFrom {i : LoadedInstrument} (hc : InData data c)
    (h : featuresFrom stop i c = .error (.macroStuck offset)) : StuckAt data offset := by
  fun_induction featuresFrom stop i c with
  | case1 i c _ fault hscan =>
    cases h
    exact (tells_scanFeature i).stuck hc hscan
  | case2 => cases h
  | case3 i c _ taken next hscan ih => exact ih ((tells_scanFeature i).keeps hc hscan) h
  | case4 => cases h

theorem tells_load : Tells data load :=
  (Reports.block InData.skip "INS2").bind fun _ => (Reports.skip InData.skip 2).bind fun _ =>
    (Reports.word InData.skip).bind fun _ => .get_bind fun _ hc =>
    .lift fun _ => stuckAt_of_featuresFrom hc

end LoadedInstrument

section Parse

open LoadedInstrument

variable {data : List UInt8} {offset : Nat}

theorem tells_pattern (length : Nat) : Tells data (Scan.pattern length) := by
  refine (Reports.block InData.skip "PATN").bind fun stop =>
    (Reports.skip InData.skip 1).bind fun _ => (Reports.byte InData.skip).bind fun channel =>
    (Reports.word InData.skip).bind fun index => (Reports.text InData.skip).bind fun _ =>
    .get_bind fun c hc => ?_
  split
  · exact .pure _
  · exact .throw nofun

theorem tells_info : Tells data Scan.info := by
  have hskip (count : Nat) : Tells data (Scan.skip count) := .skip InData.skip count
  have hbytes (count : Nat) : Tells data (Scan.bytes count) := .bytes InData.skip count
  have hword : Tells data Scan.word := .word InData.skip
  have hlong : Tells data Scan.long := .long InData.skip
  have htext : Tells data Scan.text := .text InData.skip
  exact (Reports.block InData.skip "INFO").bind fun _ => (hskip _).bind fun _ =>
    (Reports.byte InData.skip).bind fun _ => (hskip _).bind fun _ => (hskip _).bind fun _ =>
    (Reports.float InData.skip).bind fun _ => hword.bind fun _ => hword.bind fun _ =>
    (hskip _).bind fun _ => hword.bind fun _ => (hskip _).bind fun _ => (hskip _).bind fun _ =>
    hlong.bind fun _ => (hbytes _).bind fun _ => (hskip _).bind fun _ => htext.bind fun _ =>
    htext.bind fun _ => (hskip _).bind fun _ => (hskip _).bind fun _ => (hlong.times _).bind fun _ =>
    (hlong.times _).bind fun _ => ((hbytes _).times _).bind fun _ => (hbytes _).bind fun _ =>
    (hskip _).bind fun _ => (htext.times _).bind fun _ => htext.bind fun _ => (hskip _).bind fun _ =>
    (hskip _).bind fun _ => hword.bind fun _ => hword.bind fun _ => .pure _

theorem tells_atOffsets {α : Type} {scan : Scan α} (h : Tells data scan) (offsets : List Nat) :
    Tells data (Scan.atOffsets data scan offsets) := by
  unfold Scan.atOffsets
  induction offsets with
  | nil => exact .pure _
  | cons offset offsets ih =>
    rw [List.mapM_cons]
    exact ((Reports.set (inData_ofOffset data offset)).bind fun _ => h).bind fun _ =>
      ih.bind fun _ => .pure _

theorem tells_song : Tells data (Scan.song data) := by
  refine (Reports.bytes InData.skip 16).bind fun found => ?_
  dsimp only
  split
  · apply Reports.throw_bind
    exact nofun
  · exact (Reports.word InData.skip).bind fun version => (Reports.skip InData.skip 2).bind fun _ =>
      (Reports.long InData.skip).bind fun place =>
      (Reports.set (inData_ofOffset data place)).bind fun _ => tells_info.bind fun info =>
      (tells_atOffsets LoadedInstrument.tells_load _).bind fun _ =>
      (tells_atOffsets (tells_pattern _) _).bind fun _ => .pure _

theorem stuckAt_of_parse (h : parse data = .error (.macroStuck offset)) : StuckAt data offset := by
  unfold parse at h
  cases hrun : (Scan.song data).run (.ofList data) with
  | error fault =>
    rw [hrun] at h
    cases h
    exact tells_song.stuck (inData_ofOffset data 0) hrun
  | ok result =>
    rw [hrun] at h
    cases h

/-- A module with one instrument. Its volume macro has no steps, and a header of the size that is
given. -/
def silentMacroModule (size : Nat) : List UInt8 :=
  let s := Song.make {} 1 [.ssg "" {}] []
  let offset := headerSize + (s.infoBlock ⟨[], [0], []⟩).length
  let silentMacro := encodeFields [.word size, .byte 0, .byte 0, .byte Instrument.noStep,
    .byte Instrument.noStep, .byte 0, .byte 1, .byte 0, .byte 1, .byte Instrument.noStep]
  Song.header ++ s.infoBlock ⟨[], [offset], []⟩ ++ encodeBlock "INS2" (encodeFields
    [.word formatVersion, .word 6, .bytes (Instrument.encodeFeature "MA" silentMacro),
      .bytes (Utf8.encode "EN")])

theorem endless_silentMacro :
    let c := Cursor.ofOffset (silentMacroModule 0) 534
    parse (silentMacroModule 0) = .error (.macroStuck 534) ∧
      ∃ stop, MacroPass stop 0 c c ∧ Endless (MacroPass stop 0) c ∧
        ∀ n, Passes (MacroPass stop 0) n c c := by
  intro c
  have hparse : parse (silentMacroModule 0) = .error (.macroStuck 534) := by decide +kernel
  obtain ⟨-, stop, hpass⟩ := stuckAt_of_parse hparse
  exact ⟨hparse, stop, hpass, endless_of_self hpass, passes_of_self hpass⟩

/-- Reading a module ends with a song or with a fault of the module, unless it comes to a macro
without a size. Each feature takes four bytes at least, so a loop over features has no more passes than
there are places before its stop. The same holds of a loop over macros that is not endless. It is
endless where one pass ends at the place where it started, and such a loop is given up. -/
theorem parse_ends (data : List UInt8) (stop size : Nat) :
    (∀ offset, parse data = .error (.macroStuck offset) → StuckAt data offset) ∧
      (∀ c next, FeaturePass stop c next → c.offset + 4 ≤ next.offset) ∧
      (∀ n c last, Passes (FeaturePass stop) n c last → n ≤ stop - c.offset) ∧
      (∀ c next, MacroPass stop size c next →
        c.offset < next.offset ∨ Sizeless size c ∧ next = c) ∧
      (∀ n c last, Passes (MacroPass stop size) n c last →
        n ≤ stop - c.offset ∨ Endless (MacroPass stop size) c) ∧
      ∀ found c, (∃ offset, macrosFrom stop size found c = .error (.macroStuck offset)) ↔
        Endless (MacroPass stop size) c := by
  refine ⟨fun _ => stuckAt_of_parse, fun _ _ => FeaturePass.offset_le, ?_, ?_, ?_,
    fun _ _ => macrosFrom_stuck_iff⟩
  · intro n c last hpasses
    have hpass : ∀ c next, FeaturePass stop c next →
        c.offset < stop ∧ (c.offset < next.offset ∨ next = c) := by
      intro c next hnext
      have hle := hnext.offset_le
      have hstart := hnext.1
      omega
    obtain hle | ⟨place, hplace, -⟩ := passes_le hpass hpasses
    · exact hle
    · have hle := hplace.offset_le
      omega
  · intro c next hpass
    exact hpass.moves.imp_left And.left
  · intro n c last hpasses
    have hpass : ∀ c next, MacroPass stop size c next →
        c.offset < stop ∧ (c.offset < next.offset ∨ next = c) :=
      fun c next hnext => ⟨hnext.1, hnext.moves.imp And.left And.right⟩
    exact (passes_le hpass hpasses).imp_right fun ⟨_, _, hendless⟩ => hendless

theorem parse_ends_silentMacro :
    let named := Cursor.ofList [0x4E, 0x41, 1, 0, 0]
    let stepped := Cursor.ofList [0, 1, 0xFF, 0xFF, 0, 1, 0, 1, 15, 0xFF]
    StuckAt (silentMacroModule 0) 534 ∧ (parse (silentMacroModule 8)).isOk ∧
      (∃ next, FeaturePass 5 named next ∧ 4 ≤ next.offset) ∧
      ∃ next, MacroPass 10 8 stepped next ∧
        (0 < next.offset ∨ Sizeless 8 stepped ∧ next = stepped) := by
  intro named stepped
  obtain ⟨hstuck, -⟩ := parse_ends (silentMacroModule 0) 0 0
  refine ⟨hstuck _ (by decide +kernel), by decide +kernel, ⟨named.skip 5, ?_⟩,
    ⟨stepped.skip 9, ?_⟩⟩
  · have hpass : FeaturePass 5 named (named.skip 5) := ⟨by decide, { type := 1 }, _, rfl⟩
    exact ⟨hpass, (parse_ends [] 5 0).2.1 _ _ hpass⟩
  · have hpass : MacroPass 10 8 stepped (stepped.skip 9) :=
      ⟨by decide, _, scanMacro_of_ahead (m := ⟨[15], none⟩) ⟨by decide, by decide⟩
        ⟨Nat.zero_le _, rfl⟩⟩
    exact ⟨hpass, (parse_ends [] 10 8).2.2.2.1 _ _ hpass⟩

end Parse

end ChipScore.Tracker

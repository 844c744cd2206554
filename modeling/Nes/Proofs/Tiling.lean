import Mathlib
import Nes.Memory.Flat
import Nes.Proofs.Exchange
import Nes.Proofs.Views

/-!
# Listings tile their range

A listing walks from line to line by the lengths of the instructions. The place where it stands is a number and not an
address, so that it cannot come round at the top of memory.

* What one round of the walk adds continues a tiling (`Listing.Tiles`), and so does the whole walk, on every bus
  (`Listing.run_extend_tiles`).
* In a tiling the addresses grow (`Listing.Tiles.sorted`). So a file of the lines by address has all of them, in the order
  in which they were read (`Listing.toList_filed`), and the lines from an address on are a range of the file
  (`Listing.toList_linesFrom`).
* On a bus where looking does not change what is shown (`Bus.Discreet`), a line is what the bus shows at its address.

`Listing.tiles_range` says all this of the listing of a range.
-/

namespace Nes

/-! ## What views show -/

namespace Bus

variable {α β : Type} [Bus β] {bus : β} {t : Transaction α}

/-- The byte that a view shows. -/
def shown (bus : β) (addr : Addr) : Byte := (Bus.read .view addr bus).1

/-- Looking does not change what is shown. -/
def Discreet (bus : β) : Prop :=
  ∀ (α : Type) (t : Transaction α), t.OnlyViews → ∀ addr, shown (t.run bus).2 addr = shown bus addr

/-- The line that views show at an address. -/
def lineShown (bus : β) (address : Addr) : Line :=
  ⟨address, shown bus address, shown bus (address + 1), shown bus (address + 2)⟩

/-- A bus that views leave as it is. -/
theorem discreet_of_unchanged (h : ∀ addr (bus : β), (Bus.read .view addr bus).2 = bus) (bus : β) : Discreet bus := by
  intro α t ht addr
  rw [ht.run h]

theorem Discreet.after (h : Discreet bus) (ht : t.OnlyViews) : Discreet (t.run bus).2 := by
  intro γ s hs addr
  have hboth := h γ (t >>= fun _ => s) (ht.bind fun _ => hs) addr
  rw [Transaction.run_bind] at hboth
  exact hboth.trans (h α t ht addr).symm

theorem Discreet.lineShown_after (h : Discreet bus) (ht : t.OnlyViews) : lineShown (t.run bus).2 = lineShown bus := by
  funext address
  simp only [lineShown, h α t ht]

theorem Discreet.run_decode (h : Discreet bus) (address : Addr) :
    ((Line.decode address).run bus).1 = lineShown bus address := by
  have hfirst := h _ _ (Transaction.onlyViews_view address) (address + 1)
  have htwo := (Transaction.onlyViews_view address).bind fun _ => Transaction.onlyViews_view (address + 1)
  have hsecond := h _ _ htwo (address + 2)
  rw [lineShown, ← hfirst, ← hsecond]
  rfl

/-- Decoding one line after the other shows each as if it were the only one. -/
theorem Discreet.run_decodeAll (h : Discreet bus) (addresses : List Addr) :
    ((addresses.mapM Line.decode).run bus).1 = addresses.map (lineShown bus) := by
  induction addresses generalizing bus with
  | nil => rfl
  | cons address rest ih =>
    have hrest := ih (h.after (Line.onlyViews_decode address))
    rw [h.lineShown_after (Line.onlyViews_decode address)] at hrest
    simp only [List.mapM_cons, Transaction.run_bind, Transaction.pure_eq, Transaction.run_done, hrest, h.run_decode,
      List.map_cons]

end Bus

namespace Listing

/-! ## Tilings -/

/-- Lines without a gap from `place` on, as long as they begin at `last` or before it. -/
inductive Tiles (last : Addr) : Nat → List Line → Prop
  | past {place : Nat} : last.toNat < place → Tiles last place []
  | line {place : Nat} {line : Line} {rest : List Line} : place ≤ last.toNat → line.address.toNat = place →
      Tiles last (place + line.length) rest → Tiles last place (line :: rest)

/-- **The walk tiles.** On every bus it adds a tiling to the lines that are there. What it does on the bus is to decode at
the addresses of these lines one after the other. -/
theorem run_extend_tiles {β : Type} [Bus β] (bus : β) (last : Addr) (place : Nat) (lines : Array Line) :
    ∃ added, ((extend last place lines).run bus).1.toList = lines.toList ++ added ∧ Tiles last place added ∧
      ((added.map (·.address)).mapM Line.decode).run bus = (added, ((extend last place lines).run bus).2) ∧
      ((added.map (·.address)).mapM Line.decode).traffic bus = (extend last place lines).traffic bus := by
  fun_induction extend last place lines generalizing bus with
  | case1 place lines hle ih =>
    let line := ((Line.decode (BitVec.ofNat 16 place)).run bus).1
    obtain ⟨added, hlines, htiles, hdecoded, htraffic⟩ := ih line ((Line.decode (BitVec.ofNat 16 place)).run bus).2
    have haddress : line.address = BitVec.ofNat 16 place := rfl
    -- the place is not behind `last`, so as an address it is still the same number
    have hplace : line.address.toNat = place := by
      rw [haddress, BitVec.toNat_ofNat]
      have := last.isLt
      omega
    refine ⟨line :: added, ?_, .line hle hplace htiles, ?_, ?_⟩
    · rw [Transaction.run_bind, hlines, Array.toList_push, List.append_assoc]
      rfl
    · simp only [List.map_cons, List.mapM_cons, Transaction.run_bind, haddress, Transaction.pure_eq,
        Transaction.run_done]
      rw [hdecoded]
    · simp only [List.map_cons, List.mapM_cons, Transaction.traffic_bind, haddress, Transaction.pure_eq,
        Transaction.traffic_done, List.append_nil]
      rw [htraffic]
  | case2 place lines hlt => exact ⟨[], (List.append_nil _).symm, .past (by omega), rfl, rfl⟩

namespace Tiles

variable {last : Addr} {place : Nat} {lines : List Line}

theorem eq_nil_iff (h : Tiles last place lines) : lines = [] ↔ last.toNat < place := by
  cases h with
  | past hlt => exact iff_of_true rfl hlt
  | line hle hplace hrest => exact iff_of_false (List.cons_ne_nil _ _) (by omega)

theorem head (h : Tiles last place lines) {line : Line} (hline : lines.head? = some line) :
    line.address.toNat = place := by
  cases h with
  | past hlt => cases hline
  | line hle hplace hrest =>
    cases hline
    exact hplace

theorem next (h : Tiles last place lines) {i : Nat} {line next : Line} (hline : lines[i]? = some line)
    (hnext : lines[i + 1]? = some next) : next.address.toNat = line.address.toNat + line.length := by
  induction h generalizing i with
  | past hlt => cases hline
  | line hle hplace hrest ih =>
    cases i with
    | zero =>
      cases hline
      rw [hplace]
      exact hrest.head (List.head?_eq_getElem?.trans hnext)
    | succ i => exact ih hline hnext

theorem within (h : Tiles last place lines) :
    ∀ line ∈ lines, place ≤ line.address.toNat ∧ line.address.toNat ≤ last.toNat := by
  induction h with
  | past hlt => simp
  | line hle hplace hrest ih =>
    intro line hline
    rcases List.mem_cons.mp hline with rfl | hline
    · omega
    · have := ih line hline
      omega

theorem reaches (h : Tiles last place lines) {line : Line} (hline : lines.getLast? = some line) :
    last.toNat < line.address.toNat + line.length := by
  induction h with
  | past hlt => cases hline
  | @line place line' rest hle hplace hrest ih =>
    cases rest with
    | nil =>
      obtain rfl : line' = line := Option.some.inj hline
      have := hrest.eq_nil_iff.mp rfl
      omega
    | cons next rest => exact ih hline

/-- Each line takes at least one address. -/
theorem length_le (h : Tiles last place lines) : lines.length ≤ last.toNat + 1 - place := by
  induction h with
  | past hlt => exact Nat.zero_le _
  | @line place line rest hle hplace hrest ih =>
    have := line.length_pos
    rw [List.length_cons]
    omega

/-- The addresses of a tiling grow. -/
theorem sorted (h : Tiles last place lines) : lines.Pairwise (·.address < ·.address) := by
  induction h with
  | past hlt => exact .nil
  | @line place line rest hle hplace hrest ih =>
    refine .cons (fun later hlater => ?_) ih
    have := (hrest.within later hlater).1
    have := line.length_pos
    rw [BitVec.lt_def]
    omega

end Tiles

/-! ## Lines by their addresses -/

/-- The lines of a listing filed by their addresses, in the order in which they were read: of two lines with one address
the later one would stay. -/
def filed (l : Listing) : Std.TreeMap Addr Line := .ofList (l.lines.toList.map fun line => (line.address, line))

section Sorted

variable {l : Listing} (hsorted : l.lines.toList.Pairwise (·.address < ·.address))

include hsorted

theorem eq_of_address_eq {line line' : Line} (h : line ∈ l.lines) (h' : line' ∈ l.lines)
    (haddress : line.address = line'.address) : line = line' := by
  by_contra hne
  have hdistinct : l.lines.toList.Pairwise fun a b => a.address ≠ b.address :=
    hsorted.imp fun hlt heq => absurd (heq ▸ hlt) (BitVec.lt_irrefl _)
  have : Std.Symm fun a b : Line => a.address ≠ b.address := ⟨fun _ _ hab => hab.symm⟩
  exact hdistinct.forall h.val h'.val hne haddress

/-- An address finds the line that begins there. -/
theorem line?_eq_some_iff (addr : Addr) (line : Line) :
    l.line? addr = some line ↔ line ∈ l.lines ∧ line.address = addr := by
  constructor
  · intro h
    exact ⟨Array.mem_of_find?_eq_some h, by simpa using Array.find?_some h⟩
  · rintro ⟨hmem, rfl⟩
    have hfound : (l.line? line.address).isSome = true := Array.find?_isSome.mpr ⟨line, hmem, beq_self_eq_true _⟩
    obtain ⟨other, hother⟩ := Option.isSome_iff_exists.mp hfound
    have haddress : other.address = line.address := by simpa using Array.find?_some hother
    rw [hother, eq_of_address_eq hsorted (Array.mem_of_find?_eq_some hother) hmem haddress]

/-- The file has the same answer. -/
theorem getElem?_filed (addr : Addr) : l.filed[addr]? = l.line? addr := by
  have hkeys : (l.lines.toList.map fun line => (line.address, line)).Pairwise fun a b => ¬compare a.1 b.1 = .eq := by
    rw [List.pairwise_map]
    refine hsorted.imp fun hlt heq => ?_
    exact absurd (Std.LawfulEqCmp.compare_eq_iff_eq.mp heq) (BitVec.ne_of_lt hlt)
  cases hfound : l.line? addr with
  | some line =>
    obtain ⟨hmem, haddress⟩ := (line?_eq_some_iff hsorted addr line).mp hfound
    have hpair : (addr, line) ∈ l.lines.toList.map fun line => (line.address, line) :=
      List.mem_map.mpr ⟨line, hmem.val, by rw [haddress]⟩
    exact Std.TreeMap.getElem?_ofList_of_mem Std.ReflCmp.compare_self hkeys hpair
  | none =>
    apply Std.TreeMap.getElem?_ofList_of_contains_eq_false
    simp only [line?, Array.find?_eq_none, beq_iff_eq] at hfound
    simpa using fun line hline => hfound line (Array.mem_def.mpr hline)

/-- **No line is lost.** The file has the lines that were read, in the order in which they were read. -/
theorem toList_filed : l.filed.toList = l.lines.toList.map fun line => (line.address, line) := by
  let Less (a b : Addr × Line) : Prop := a.1 < b.1
  have hread : (l.lines.toList.map fun line => (line.address, line)).Pairwise Less := List.pairwise_map.mpr hsorted
  have hfiled : l.filed.toList.Pairwise Less :=
    (Std.TreeMap.ordered_keys_toList (t := l.filed)).imp fun hab => compareOfLessAndEq_eq_lt.mp hab
  have hne {a b : Addr × Line} (hab : Less a b) : a ≠ b := fun heq => BitVec.ne_of_lt hab (congrArg Prod.fst heq)
  -- both lists are sorted, so it is enough that they have the same pairs
  apply List.Perm.eq_of_pairwise (fun a b _ _ hab hba => absurd hab (BitVec.lt_asymm hba)) hfiled hread
  rw [List.perm_ext_iff_of_nodup (hfiled.imp hne) (hread.imp hne)]
  rintro ⟨addr, line⟩
  rw [Std.TreeMap.mem_toList_iff_getElem?_eq_some, getElem?_filed hsorted, line?_eq_some_iff hsorted]
  simp only [List.mem_map, Prod.mk.injEq, Array.mem_toList_iff]
  constructor
  · rintro ⟨hmem, haddress⟩
    exact ⟨line, hmem, haddress, rfl⟩
  · rintro ⟨line, hmem, haddress, rfl⟩
    exact ⟨hmem, haddress⟩

/-- The lines from an address on are a range of the file. -/
theorem toList_linesFrom (addr : Addr) : (l.linesFrom addr).toList = l.filed[addr...*].toList.map (·.2) := by
  have hbehind (a : Addr) : (compare a addr).isGE = decide (addr ≤ a) := by
    have hless : compare a addr = .lt ↔ a < addr := compareOfLessAndEq_eq_lt
    rw [Bool.eq_iff_iff, decide_eq_true_iff, ← BitVec.not_lt, ← hless]
    exact Ordering.isGE_iff_ne_lt
  rw [Std.TreeMap.toList_rci compare, toList_filed hsorted, linesFrom, Array.toList_filter, List.filter_map,
    List.map_map]
  simp only [Function.comp_def, hbehind, List.map_id']

theorem sorted_linesFrom (addr : Addr) : (l.linesFrom addr).toList.Pairwise (·.address < ·.address) := by
  rw [linesFrom, Array.toList_filter]
  exact hsorted.filter _

end Sorted

/-! ## The listing of a range -/

/-- Lines that tile a range of addresses. Addresses are compared as numbers, so nothing comes round at the top. -/
structure Tiling (first last : Addr) (lines : List Line) : Prop where
  empty_iff : lines = [] ↔ last < first
  starts : ∀ line, lines.head? = some line → line.address = first
  follows : ∀ i line next, lines[i]? = some line → lines[i + 1]? = some next →
    next.address.toNat = line.address.toNat + line.length
  within : ∀ line ∈ lines, first ≤ line.address ∧ line.address ≤ last
  reaches : ∀ line, lines.getLast? = some line → last.toNat < line.address.toNat + line.length
  length_le : lines.length ≤ last.toNat + 1 - first.toNat

theorem Tiles.tiling {first last : Addr} {lines : List Line} (h : Tiles last first.toNat lines) :
    Tiling first last lines where
  empty_iff := h.eq_nil_iff
  starts _ hline := BitVec.eq_of_toNat_eq (h.head hline)
  follows _ _ _ hline hnext := h.next hline hnext
  within := h.within
  reaches _ hline := h.reaches hline
  length_le := h.length_le

theorem Tiling.exists_first {first last : Addr} {lines : List Line} (h : Tiling first last lines) (hle : first ≤ last) :
    ∃ line ∈ lines, line.address = first := by
  have hne : lines ≠ [] := mt h.empty_iff.mp (BitVec.not_lt.mpr hle)
  obtain ⟨line, hhead⟩ := Option.isSome_iff_exists.mp (List.isSome_head?.mpr hne)
  exact ⟨line, List.mem_of_head? hhead, h.starts line hhead⟩

/-- **A listing tiles its range.** On every bus the listing of a range ends. Its lines, in the order in which they stand,
tile the range. It does on the bus what decoding at their addresses one after the other does, and they are what comes of
this; if looking does not change what is shown, each is what the bus shows at its address.

A file of the lines by address has all of them in the same order, and looking up an address finds the line that begins
there. The lines from an address on are what the file has from there on; they are the lines that begin at the address or
behind it, and their addresses grow. -/
theorem tiles_range {β : Type} [Bus β] (bus : β) (first last : Addr) :
    let run := (ofRange first last).run bus
    let listing := run.1
    let lines := listing.lines.toList
    let decoding := listing.addresses.toList.mapM Line.decode
    Tiling first last lines ∧
    (decoding.run bus = (lines, run.2) ∧ decoding.traffic bus = (ofRange first last).traffic bus) ∧
    (Bus.Discreet bus → ∀ line ∈ lines,
      line = ((Line.decode line.address).run bus).1 ∧ line = Bus.lineShown bus line.address) ∧
    listing.filed.toList = lines.map (fun line => (line.address, line)) ∧
    (∀ addr, listing.line? addr = listing.filed[addr]? ∧
      ∀ line, listing.line? addr = some line ↔ line ∈ lines ∧ line.address = addr) ∧
    ∀ addr, (listing.linesFrom addr).toList = listing.filed[addr...*].toList.map (·.2) ∧
      (listing.linesFrom addr).toList.Pairwise (·.address < ·.address) ∧
      ∀ line, line ∈ listing.linesFrom addr ↔ line ∈ lines ∧ addr ≤ line.address := by
  intro run listing lines decoding
  obtain ⟨added, hlines, htiles, hdecoded, htraffic⟩ := run_extend_tiles bus last first.toNat #[]
  have hrun : run = (⟨((extend last first.toNat #[]).run bus).1⟩, ((extend last first.toNat #[]).run bus).2) := by
    simp only [run, ofRange, Transaction.run_bind, Transaction.pure_eq, Transaction.run_done]
  have hadded : lines = added := by
    simp only [lines, listing, hrun, hlines, List.nil_append]
  have haddresses : decoding = (added.map (·.address)).mapM Line.decode := by
    simp only [decoding, addresses, Array.toList_map, ← hadded, lines]
  have hsorted : lines.Pairwise (·.address < ·.address) := hadded ▸ htiles.sorted
  refine ⟨hadded ▸ htiles.tiling, ⟨?_, ?_⟩, ?_, toList_filed hsorted, ?_, ?_⟩
  · rw [haddresses, hdecoded, hadded, hrun]
  · rw [haddresses, htraffic, ofRange]
    simp only [Transaction.traffic_bind, Transaction.pure_eq, Transaction.traffic_done, List.append_nil]
  · intro hdiscreet line hline
    have hall : added = (added.map (·.address)).map (Bus.lineShown bus) := by
      rw [← hdiscreet.run_decodeAll, hdecoded]
    have hshown : line = Bus.lineShown bus line.address := by
      rw [hadded, hall] at hline
      obtain ⟨address, -, rfl⟩ := List.mem_map.mp hline
      rfl
    exact ⟨hshown.trans (hdiscreet.run_decode line.address).symm, hshown⟩
  · intro addr
    refine ⟨(getElem?_filed hsorted addr).symm, fun line => ?_⟩
    rw [line?_eq_some_iff hsorted, Array.mem_toList_iff]
  · intro addr
    refine ⟨toList_linesFrom hsorted addr, sorted_linesFrom hsorted addr, fun line => ?_⟩
    simp [linesFrom, lines]

/-- An instruction of three bytes on the last address. -/
def sampleTop : FlatMemory := FlatMemory.zero.load 0xFFFF [0xAD, 0x34, 0x12]

theorem discreet_sampleTop : Bus.Discreet sampleTop := Bus.discreet_of_unchanged (fun _ _ => rfl) sampleTop

theorem lineShown_flat (m : FlatMemory) (address : Addr) :
    Bus.lineShown m address = ⟨address, m.peek address, m.peek (address + 1), m.peek (address + 2)⟩ := rfl

theorem lineShown_sampleTop : Bus.lineShown sampleTop 0xFFFF = ⟨0xFFFF, 0xAD, 0x34, 0x12⟩ := by
  have hopcode : sampleTop.peek 0xFFFF = 0xAD := by simp [sampleTop, FlatMemory.peek_poke]
  have hfirst : sampleTop.peek (0xFFFF + 1) = 0x34 := by simp [sampleTop, FlatMemory.peek_poke]
  have hsecond : sampleTop.peek (0xFFFF + 2) = 0x12 := by simp [sampleTop, FlatMemory.peek_poke]
  rw [lineShown_flat, hopcode, hfirst, hsecond]

theorem tiles_range_sample :
    Bus.Discreet sampleTop ∧
      ((ofRange 0xFFFF 0xFFFF).run sampleTop).1.line? 0xFFFF = some ⟨0xFFFF, 0xAD, 0x34, 0x12⟩ := by
  obtain ⟨htiling, -, hshown, -, hlookup, -⟩ := tiles_range sampleTop 0xFFFF 0xFFFF
  obtain ⟨line, hmem, haddress⟩ := htiling.exists_first (BitVec.le_refl _)
  have hline := (hshown discreet_sampleTop line hmem).2
  rw [haddress, lineShown_sampleTop] at hline
  rw [hline] at hmem haddress
  exact ⟨discreet_sampleTop, ((hlookup 0xFFFF).2 _).mpr ⟨hmem, haddress⟩⟩

end Listing

end Nes

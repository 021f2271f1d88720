import Mathlib.Tactic.SplitIfs
import Turnstile.Disk.Basic

/-!
# Where paths lead

A path leads to a name under which a file can be created, and where it leads is told by the
directories alone (`Disk.place_eq_ok_iff`), whatever becomes of the files. There is a file at the
path if the disk holds one under this name (`Disk.find_eq_ok_iff`), and a region if that file is one
(`Disk.openRegion_eq_ok_iff`). What is put under a name is found there and nowhere else
(`Disk.file_put`).
-/

set_option autoImplicit false
set_option relaxedAutoImplicit false

namespace Turnstile

/-- A sequence succeeds if each of its steps does. -/
theorem bind_eq_ok_iff {ε α β : Type} {x : Except ε α} {f : α → Except ε β} {b : β} :
    (x >>= f) = .ok b ↔ ∃ a, x = .ok a ∧ f a = .ok b := by
  cases x <;> simp [bind, Except.bind]

theorem exists_eq_ok {ε α : Type} {x : Except ε α} (h : x.toOption.isSome) : ∃ a, x = .ok a := by
  cases x with
  | error e => exact absurd h Bool.false_ne_true
  | ok a => exact ⟨a, rfl⟩

namespace Disk

variable {d next : Disk} {path name : String}

theorem walk_eq_ok (hdirectories : next.directories = d.directories) {directory : String}
    {components : List String} {t : Target} (h : d.walk directory components = .ok t) :
    next.walk directory components = .ok t := by
  induction components generalizing directory with
  | nil => exact h
  | cons c rest ih =>
    simp only [walk, hdirectories] at h ⊢
    split_ifs at h ⊢ <;> first | exact h | exact ih h

theorem target_eq_ok (hdirectories : next.directories = d.directories) {t : Target}
    (h : d.target path = .ok t) : next.target path = .ok t := by
  unfold target at h ⊢
  split_ifs at h ⊢
  cases hwalk : d.walk (origin path) (path.splitOn "/") with
  | error e =>
    rw [hwalk] at h
    cases h
  | ok t' =>
    rw [hwalk] at h
    rw [walk_eq_ok hdirectories hwalk]
    exact h

theorem place_eq_ok_iff_target :
    d.place path = .ok name ↔ d.target path = .ok (.entry name) := by
  unfold place
  rw [bind_eq_ok_iff]
  constructor
  · rintro ⟨t, ht, hname⟩
    cases t with
    | entry found =>
      cases hname
      exact ht
    | directory | slashed | overlong => cases hname
  · exact fun ht ↦ ⟨_, ht, rfl⟩

theorem place_eq_ok (hdirectories : next.directories = d.directories)
    (h : d.place path = .ok name) : next.place path = .ok name :=
  place_eq_ok_iff_target.2 (target_eq_ok hdirectories (place_eq_ok_iff_target.1 h))

/-- The name under which a file can be created is told by the directories. -/
theorem place_eq_ok_iff (hdirectories : next.directories = d.directories) :
    next.place path = .ok name ↔ d.place path = .ok name :=
  ⟨place_eq_ok hdirectories.symm, place_eq_ok hdirectories⟩

theorem find_eq_ok_iff :
    d.find path = .ok name ↔ d.place path = .ok name ∧ d.holds name := by
  unfold find
  rw [place_eq_ok_iff_target, bind_eq_ok_iff]
  constructor
  · rintro ⟨t, ht, hname⟩
    cases t with
    | entry found =>
      dsimp only at hname
      split_ifs at hname with hholds
      cases hname
      exact ⟨ht, hholds⟩
    | directory | slashed | overlong => cases hname
  · rintro ⟨ht, hholds⟩
    exact ⟨_, ht, if_pos hholds⟩

theorem directories_put (d : Disk) (name : String) (f : File) :
    (d.put name f).directories = d.directories := by
  unfold put
  split <;> rfl

/-- Nothing is lost when something is put under a name. -/
theorem holds_put (h : d.holds name) (name' : String) (f : File) :
    (d.put name' f).holds name := by
  unfold put
  split
  · exact h
  · simp only [holds, Bool.or_eq_true] at h ⊢
    exact h.imp_left fun hcontains ↦ by simp [hcontains]

/-- What is written replaces what was there. -/
theorem write_eq_ok {bytes : List UInt8} {written : Disk × String}
    (h : d.write path bytes = .ok written) :
    d.place path = .ok written.2 ∧ written.1 = (d.put written.2 .empty).put written.2
      (((d.put written.2 .empty).file written.2).write 0 bytes) := by
  obtain ⟨name, hplace, hstored⟩ := bind_eq_ok_iff.1 h
  obtain ⟨next, hstore, hwritten⟩ := bind_eq_ok_iff.1 hstored
  cases hwritten
  unfold store at hstore
  split_ifs at hstore
  cases hstore
  exact ⟨hplace, rfl⟩

/-- What is put under a name is found there, unless it is the name of a device, and nowhere else. -/
theorem file_put (d : Disk) (name : String) (f : File) (name' : String) :
    (d.put name f).file name' =
      if name' = name ∧ isDevice name = false then f else d.file name' := by
  unfold put
  cases hdevice : isDevice name with
  | true => simp
  | false =>
    by_cases hname : name' = name
    · subst hname
      simp [file]
    · simp [file, hname, Std.TreeMap.getElem?_insert, Ne.symm hname]

theorem openRegion_eq_ok_iff : d.openRegion path = .ok name ↔
    d.find path = .ok name ∧ ∃ r, (d.file name).region = .ok r := by
  unfold openRegion
  cases d.find path with
  | error e => exact iff_of_false (by rintro ⟨⟩) (by simp)
  | ok found =>
    rw [bind_eq_ok_iff]
    constructor
    · rintro ⟨r, hregion, hname⟩
      cases hname
      exact ⟨rfl, r, hregion⟩
    · rintro ⟨hname, r, hregion⟩
      cases hname
      exact ⟨r, hregion, rfl⟩

/-- What has been put under a name is found at every path that leads there. -/
theorem find_put (hplace : d.place path = .ok name) (hfile : isDevice name = false) (f : File) :
    (d.put name f).find path = .ok name := by
  refine find_eq_ok_iff.2 ⟨(place_eq_ok_iff (directories_put d name f)).2 hplace, ?_⟩
  simp [holds, put, hfile]

theorem openRegion_put (hplace : d.place path = .ok name) (hfile : isDevice name = false)
    {r : Region} (hlayout : r.checkLayout = .ok ()) :
    (d.put name (.ofRegion r)).openRegion path = .ok name := by
  have hregion : (File.ofRegion r).region = .ok r := by
    simp only [File.region, File.ofRegion, hlayout]
    rfl
  rw [openRegion_eq_ok_iff, file_put, if_pos ⟨rfl, hfile⟩]
  exact ⟨find_put hplace hfile _, r, hregion⟩

/-- A region stays when something is put elsewhere. -/
theorem openRegion_put_of_ne (h : d.openRegion path = .ok name) {name' : String}
    (hne : name ≠ name') (f : File) : (d.put name' f).openRegion path = .ok name := by
  obtain ⟨hfind, hregion⟩ := openRegion_eq_ok_iff.1 h
  obtain ⟨hplace, hholds⟩ := find_eq_ok_iff.1 hfind
  rw [openRegion_eq_ok_iff, find_eq_ok_iff, file_put, if_neg fun hname ↦ hne hname.1]
  have hplaceAfter := (place_eq_ok_iff (directories_put d name' f)).2 hplace
  exact ⟨⟨hplaceAfter, holds_put hholds name' f⟩, hregion⟩

/-! ### A disk with a region -/

/-- A disk with a region in the file `r`. -/
def keeping (r : Region) : Disk := empty.put "r" (.ofRegion r)

theorem splitOn_plain (h : path ∈ ["l", "r", "s"]) : path.splitOn "/" = [path] := by
  have hunits : ∀ s ∈ ["l", "r", "s"], String.Pos.Raw.atEnd s 0 = false ∧
      (String.Pos.Raw.get s 0 == String.Pos.Raw.get "/" 0) = false ∧
      (String.Pos.Raw.next s (String.Pos.Raw.unoffsetBy 0 0)).atEnd s = true ∧
      String.Pos.Raw.extract s 0 (String.Pos.Raw.next s 0) = s := by decide +kernel
  obtain ⟨hstarts, hdiffers, hends, hwhole⟩ := hunits path h
  rw [String.splitOn, if_neg (by decide), String.splitOnAux, if_neg (by simp [hstarts]),
    if_neg (by simp [hdiffers]), String.splitOnAux, if_pos hends]
  simp [hwhole]

/-- Plain paths lead to the names that they are. -/
theorem place_plain (h : path ∈ ["l", "r", "s"]) : empty.place path = .ok path := by
  have hparts : ∀ s ∈ ["l", "r", "s"], ¬ s.toList.contains '\x00' ∧ s ≠ "" ∧
      ¬ pathBound ≤ s.utf8ByteSize ∧ isIdle s = false ∧ s ≠ ".." ∧ isOverlong s = false ∧
      join (origin s) s = s ∧ s ∉ empty.directories := by decide +kernel
  obtain ⟨hzero, hempty, hbound, hidle, hparent, hshort, hjoin, hfile⟩ := hparts path h
  have hwalk : empty.walk (origin path) [path] = .ok (.entry path) := by
    simp [walk, hidle, hparent, hshort, hjoin, hfile]
  rw [place_eq_ok_iff_target, target, if_neg hzero, if_neg hempty, if_neg hbound, splitOn_plain h,
    hwalk]
  rfl

theorem place_keeping (r : Region) (h : path ∈ ["l", "r", "s"]) :
    (keeping r).place path = .ok path :=
  (place_eq_ok_iff (directories_put _ _ _)).2 (place_plain h)

variable {r : Region}

theorem file_keeping : (keeping r).file "r" = .ofRegion r := by
  rw [keeping, file_put, if_pos ⟨rfl, by decide +kernel⟩]

theorem openRegion_keeping (h : r.checkLayout = .ok ()) : (keeping r).openRegion "r" = .ok "r" :=
  openRegion_put (place_plain (by decide)) (by decide +kernel) h

end Disk

end Turnstile

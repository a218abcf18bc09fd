import Mathlib.Data.List.Basic
import StyleVars.FileTree.Lookup

namespace StyleVars

theorem Name.bytes_injective : Function.Injective Name.bytes := by
  rintro ⟨a⟩ ⟨b⟩ rfl
  rfl

theorem Name.ofBytes?_eq_some {b : Bytes} {name : Name} (h : ofBytes? b = some name) :
    name.bytes = b := by
  unfold ofBytes? at h
  split at h
  · rw [← Option.some.inj h]
  · cases h

theorem Name.ofBytes?_bytes (name : Name) : ofBytes? name.bytes = some name := by
  unfold ofBytes?
  rw [dif_pos ⟨name.ne_nil, name.ne_dot, name.ne_dotDot, name.slash_notMem, name.nul_notMem,
    name.length_le⟩]

namespace Path

/-- The names, `.` and `..` included, that the path goes through. -/
def parts (p : Path) : List Bytes := (p.splitOn slash).filter (!·.isEmpty)

/-- The path of an entry of an entry, and so on, of the root. -/
def below (root : Path) (names : List Name) : Path := names.foldl (fun p n => p.join n.bytes) root

variable {p root : Path}

theorem parts_append_slash (p q : Path) : parts (p ++ slash :: q) = parts p ++ parts q := by
  rw [parts, List.splitOn_append_cons_self, List.filter_append]
  rfl

theorem parts_bytes (n : Name) : parts n.bytes = [n.bytes] := by
  rw [parts, List.splitOn_eq_singleton n.slash_notMem]
  simp [n.ne_nil]

theorem isAbsolute_bytes (n : Name) : isAbsolute n.bytes = false := by
  have hslash := n.slash_notMem
  cases hbytes : n.bytes with
  | nil => rfl
  | cons b rest =>
    rw [hbytes] at hslash
    simp only [List.mem_cons, not_or] at hslash
    simp [isAbsolute, Ne.symm hslash.1]

theorem join_bytes (hp : p ≠ []) (n : Name) :
    p.join n.bytes =
      if p.getLast? == some slash then p ++ n.bytes else p ++ slash :: n.bytes := by
  simp [join, isAbsolute_bytes, hp]

theorem join_ne_nil (hp : p ≠ []) (n : Name) : p.join n.bytes ≠ [] := by
  rw [join_bytes hp]
  split <;> simp [hp]

theorem length_lt_join (hp : p ≠ []) (n : Name) : p.length < (p.join n.bytes).length := by
  have hlen := List.length_pos_iff.2 n.ne_nil
  rw [join_bytes hp]
  split <;> simp only [List.length_append, List.length_cons] <;> omega

theorem isAbsolute_join (hp : p ≠ []) (n : Name) : isAbsolute (p.join n.bytes) = isAbsolute p := by
  cases p with
  | nil => exact absurd rfl hp
  | cons b rest =>
    rw [join_bytes hp]
    split <;> rfl

theorem nul_notMem_join (hp : p ≠ []) (hnul : 0 ∉ p) (n : Name) : 0 ∉ p.join n.bytes := by
  have hn := n.nul_notMem
  rw [join_bytes hp]
  split
  · simp [hnul, hn]
  · simp [hnul, hn, show (0 : UInt8) ≠ slash by decide]

theorem getLast?_bytes_ne (n : Name) : n.bytes.getLast? ≠ some slash :=
  fun h => n.slash_notMem (List.mem_of_getLast? h)

theorem parts_join_relative {q : Path} (hp : p ≠ []) (hq : q.isAbsolute = false) :
    parts (p.join q) = parts p ++ parts q := by
  rw [join, if_neg (by simp [hp, hq])]
  split
  case isTrue hlast =>
    obtain ⟨p, rfl⟩ := List.getLast?_eq_some_iff.1 (eq_of_beq hlast)
    have hslash : parts (p ++ [slash]) = parts p := by
      rw [parts_append_slash]
      simp [parts]
    rw [hslash, List.append_assoc, List.singleton_append, parts_append_slash]
  case isFalse => exact parts_append_slash p q

theorem parts_join (hp : p ≠ []) (n : Name) : parts (p.join n.bytes) = parts p ++ [n.bytes] := by
  rw [parts_join_relative hp (isAbsolute_bytes n), parts_bytes]

theorem lookupSteps_join (hp : p ≠ []) (n : Name) :
    FileTree.lookupSteps (p.join n.bytes) = parts p ++ [n.bytes] := by
  have hlast : (p.join n.bytes).getLast? ≠ some slash := by
    obtain ⟨b, hb⟩ := Option.ne_none_iff_exists'.1 (mt List.getLast?_eq_none_iff.1 n.ne_nil)
    have hne := getLast?_bytes_ne n
    rw [join_bytes hp]
    split <;> simp_all [List.getLast?_append, List.getLast?_cons]
  rw [FileTree.lookupSteps, if_neg (by simpa using hlast), List.append_nil]
  exact parts_join hp n

theorem lookupSteps_cases (p : Path) :
    FileTree.lookupSteps p = parts p ∨ FileTree.lookupSteps p = parts p ++ [dot] := by
  rw [FileTree.lookupSteps]
  split
  · exact Or.inr rfl
  · exact Or.inl (List.append_nil _)

@[simp]
theorem below_nil (root : Path) : below root [] = root := rfl

theorem below_cons (root : Path) (n : Name) (ns : List Name) :
    below root (n :: ns) = below (root.join n.bytes) ns := rfl

theorem below_append (root : Path) (ns ms : List Name) :
    below root (ns ++ ms) = below (below root ns) ms := List.foldl_append

theorem below_concat (root : Path) (ns : List Name) (n : Name) :
    below root (ns ++ [n]) = (below root ns).join n.bytes := below_append root ns [n]

theorem parts_below (hroot : root ≠ []) (ns : List Name) :
    parts (below root ns) = parts root ++ ns.map Name.bytes := by
  induction ns generalizing root with
  | nil => simp
  | cons n ns ih => rw [below_cons, ih (join_ne_nil hroot n), parts_join hroot]; simp

theorem below_injective (hroot : root ≠ []) : Function.Injective (below root) := by
  intro ns ms h
  have hparts := congrArg parts h
  rw [parts_below hroot, parts_below hroot] at hparts
  exact List.map_injective_iff.2 Name.bytes_injective (List.append_cancel_left hparts)

end Path

end StyleVars

import BundleAudit.Proofs.Files.Extension

/-!
# Long paths to near places

A path may start with any number of points.  It leads where it leads without them, but it is longer,
and so may be a path of a folder that is too long for anything in the folder.

## Main definitions

* `Path.throughPoints k p` — the path `p` with `k` points in front.

## Main results

* `FileSystem.node_throughPoints` — points in front make no difference unless there are too many.
-/

namespace BundleAudit

namespace Path

variable {k : Nat} {p : Path}

/-- Points, each with a slash. -/
def points : Nat → String
  | 0 => ""
  | k + 1 => "./" ++ points k

/-- A path with points in front. -/
def throughPoints (k : Nat) (p : Path) : Path := ⟨points k ++ p.text⟩

theorem toList_throughPoints_succ :
    (throughPoints (k + 1) p).text.toList = ['.'] ++ '/' :: (throughPoints k p).text.toList := by
  rw [throughPoints, points, String.append_assoc, String.toList_append]
  rfl

theorem utf8ByteSize_throughPoints :
    (throughPoints k p).text.utf8ByteSize = 2 * k + p.text.utf8ByteSize := by
  induction k with
  | zero => rw [throughPoints, points, String.empty_append, Nat.mul_zero, Nat.zero_add]
  | succ k ih =>
    have hsize : ("./" : String).utf8ByteSize = 2 := by decide
    rw [throughPoints, points, String.append_assoc, String.utf8ByteSize_append, hsize]
    rw [throughPoints] at ih
    rw [ih]
    omega

theorem segments_throughPoints :
    (throughPoints k p).segments = List.replicate k .stay ++ p.segments := by
  -- the slash behind a point cuts it off
  induction k with
  | zero => rw [throughPoints, points, String.empty_append, List.replicate_zero, List.nil_append]
  | succ k ih =>
    have hpoint : Segment.ofText (String.ofList ['.']) = .stay := by decide
    rw [segments, parts, toList_throughPoints_succ, List.splitOn_append_cons_self, List.map_append,
      List.replicate_succ, List.cons_append, ← ih]
    exact congrArg (· :: _) hpoint

theorem isAbsolute_throughPoints (h : p.isAbsolute = false) :
    (throughPoints k p).isAbsolute = false := by
  cases k with
  | zero => rwa [throughPoints, points, String.empty_append]
  | succ k =>
    rw [isAbsolute, toList_throughPoints_succ]
    rfl

theorem nul_not_mem_throughPoints (h : '\x00' ∉ p.text.toList) :
    '\x00' ∉ (throughPoints k p).text.toList := by
  induction k with
  | zero => rwa [throughPoints, points, String.empty_append]
  | succ k ih =>
    rw [toList_throughPoints_succ]
    simpa using ih

end Path

namespace FileSystem

variable {fs : FileSystem} {k : Nat} {p : Path}

/-- Points lead to where they start. -/
theorem foldlM_enter_stay {root entries : Folder} {place : List FileName} (segments : List Segment)
    (h : root.nodeAt? place = some (.folder entries)) :
    (List.replicate k Segment.stay ++ segments).foldlM (enter root) place =
      segments.foldlM (enter root) place := by
  induction k with
  | zero => rfl
  | succ k ih =>
    have henter : enter root place .stay = .ok place :=
      enter_eq_ok_iff.2 ⟨⟨entries, h⟩, Or.inl ⟨rfl, rfl⟩⟩
    rw [List.replicate_succ, List.cons_append, List.foldlM_cons, henter]
    exact ih

/-- Points in front of a path make no difference unless there are too many. -/
theorem node_throughPoints (k : Nat) {entries : Folder} {node : Node}
    (hhere : fs.root.nodeAt? fs.here = some (.folder entries)) (hrelative : p.isAbsolute = false)
    (h : fs.node p = .ok node) (hsize : 2 * k + p.text.utf8ByteSize < Path.byteLimit) :
    fs.node (p.throughPoints k) = .ok node := by
  obtain ⟨place, hplace, hnode⟩ := node_eq_ok_iff.1 h
  obtain ⟨hcheck, hfollow⟩ := resolve_eq_ok_iff.1 hplace
  obtain ⟨htext, hnul, -⟩ := checkPath_eq_ok_iff.1 hcheck
  refine node_eq_ok_iff.2
    ⟨place, resolve_eq_ok_iff.2 ⟨checkPath_eq_ok_iff.2 ⟨?_, ?_, ?_⟩, ?_⟩, hnode⟩
  · intro hempty
    exact htext (String.append_eq_empty_iff.1 hempty).2
  · exact Path.nul_not_mem_throughPoints hnul
  · rw [Path.isTooLong, Path.utf8ByteSize_throughPoints]
    exact decide_eq_false (Nat.not_le_of_lt hsize)
  · rw [follow, start, hrelative, if_neg Bool.false_ne_true] at hfollow
    rw [follow, start, Path.isAbsolute_throughPoints hrelative, if_neg Bool.false_ne_true,
      Path.segments_throughPoints, foldlM_enter_stay _ hhere]
    exact hfollow

end FileSystem

namespace Path

variable {k : Nat} {p q : Path}

/-- What is seen from a path has a path that is longer. -/
theorem utf8ByteSize_join (h : q.isAbsolute = false) :
    p.text.utf8ByteSize + q.text.utf8ByteSize ≤ (p.join q).text.utf8ByteSize := by
  rw [join, h, if_neg Bool.false_ne_true]
  split
  · exact Nat.le_of_eq String.utf8ByteSize_append.symm
  · rw [String.utf8ByteSize_append, String.utf8ByteSize_append]
    omega

/-- With too many points in front, a path leads to a folder in which nothing can be reached. -/
theorem isTooLong_join_throughPoints (hrelative : q.isAbsolute = false)
    (h : byteLimit ≤ 2 * k + p.text.utf8ByteSize + q.text.utf8ByteSize) :
    ((throughPoints k p).join q).isTooLong = true := by
  have hjoin := utf8ByteSize_join (p := throughPoints k p) hrelative
  rw [utf8ByteSize_throughPoints] at hjoin
  exact decide_eq_true (Nat.le_trans h hjoin)

theorem isTooLong_descend_throughPoints {n : FileName}
    (h : byteLimit ≤ 2 * k + p.text.utf8ByteSize + n.text.utf8ByteSize) :
    ((throughPoints k p).descend [n]).isTooLong = true :=
  isTooLong_join_throughPoints (not_isAbsolute_name n) h

end Path

end BundleAudit

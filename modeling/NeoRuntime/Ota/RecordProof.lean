import NeoRuntime.Ota.Module

/-!
# Reading back a record

The bytes of a record give the record back, and a record page that was written only in part gives
the record back or nothing: its CRC is stored last (`parseRecord_body_append`).
-/

namespace NeoRuntime.Ota

theorem AppInfo.ofBytes_toBytes_append (a : AppInfo) (rest : List UInt8) :
    ofBytes (a.toBytes ++ rest) = a := by
  have drop1 : (a.toBytes ++ rest).drop 1 = le32 a.verifyCount ++
      (a.flashType.toByte :: (le32 a.flashAddr ++ le32 a.flashSize) ++ rest) := by
    simp [toBytes]
  have drop5 : (a.toBytes ++ rest).drop 5 =
      a.flashType.toByte :: (le32 a.flashAddr ++ le32 a.flashSize) ++ rest := by
    rw [show 5 = 1 + 4 from rfl, ← List.drop_drop, drop1, List.drop_left' (length_le32 _)]
  have drop6 : (a.toBytes ++ rest).drop 6 = le32 a.flashAddr ++ (le32 a.flashSize ++ rest) := by
    rw [show 6 = 5 + 1 from rfl, ← List.drop_drop, drop5]
    simp
  have drop10 : (a.toBytes ++ rest).drop 10 = le32 a.flashSize ++ rest := by
    rw [show 10 = 6 + 4 from rfl, ← List.drop_drop, drop6, List.drop_left' (length_le32 _)]
  have type : (a.toBytes ++ rest).getD 5 0 = a.flashType.toByte := by
    rw [show 5 = 5 + 0 from rfl, List.getD_eq_getElem?_getD, ← List.getElem?_drop, drop5]
    rfl
  have status : (a.toBytes ++ rest).getD 0 0 = a.status.toByte := rfl
  unfold ofBytes
  rw [drop1, drop6, drop10, type, status, readLe32_le32_append, readLe32_le32_append,
    readLe32_le32_append, AppStatus.ofByte_toByte, FlashType.ofByte_toByte]

namespace OtaRecord

variable {n : ℕ}

theorem size_pos (n : ℕ) : 0 < size n := by
  unfold size
  omega

theorem length_apps (apps : List AppInfo) :
    (apps.flatMap AppInfo.toBytes).length = apps.length * AppInfo.size := by
  induction apps with
  | nil => simp
  | cons a apps ih => rw [List.flatMap_cons, List.length_append, ih, AppInfo.length_toBytes,
      List.length_cons, Nat.succ_mul, Nat.add_comm]

theorem drop_apps (apps : List AppInfo) (i : ℕ) :
    (apps.flatMap AppInfo.toBytes).drop (i * AppInfo.size) =
      (apps.drop i).flatMap AppInfo.toBytes := by
  induction i generalizing apps with
  | zero => simp
  | succ i ih =>
    cases apps with
    | nil => simp
    | cons a apps =>
      rw [List.flatMap_cons, Nat.succ_mul, Nat.add_comm, ← List.drop_drop,
        List.drop_left' a.length_toBytes, ih, List.drop_succ_cons]

@[simp] theorem length_body (r : OtaRecord n) : r.body.length = size n - 4 := by
  simp only [body, List.length_append, length_le32, length_apps, List.length_ofFn, size]
  omega

@[simp] theorem length_toBytes (r : OtaRecord n) : r.toBytes.length = size n := by
  simp only [toBytes, List.length_append, length_le32, length_body, size]
  omega

theorem ofBytes_body_append (r : OtaRecord n) (tail : List UInt8) :
    ofBytes n (r.body ++ tail) = { r with infoCrc32 := readLe32 tail } := by
  have drop4 : (r.body ++ tail).drop 4 =
      (List.ofFn r.apps).flatMap AppInfo.toBytes ++ (le32 r.bootYmodemFlag ++ tail) := by
    rw [body, List.append_assoc, List.append_assoc, List.drop_left' (length_le32 _)]
  have drops : ∀ k, (r.body ++ tail).drop (4 + k) =
      ((List.ofFn r.apps).flatMap AppInfo.toBytes ++ (le32 r.bootYmodemFlag ++ tail)).drop k := by
    intro k
    rw [← List.drop_drop, drop4]
  have all : ((List.ofFn r.apps).flatMap AppInfo.toBytes).length = n * AppInfo.size := by
    rw [length_apps, List.length_ofFn]
  have magic : readLe32 (r.body ++ tail) = r.magic := by
    rw [body, List.append_assoc, readLe32_le32_append]
  have apps : (fun i : Fin n => AppInfo.ofBytes ((r.body ++ tail).drop (4 + i * AppInfo.size))) =
      r.apps := by
    funext i
    have le : i * AppInfo.size ≤ ((List.ofFn r.apps).flatMap AppInfo.toBytes).length := by
      rw [all]
      exact Nat.mul_le_mul_right _ i.isLt.le
    have first : (List.ofFn r.apps).drop i = r.apps i :: (List.ofFn r.apps).drop (i + 1) := by
      rw [List.drop_eq_getElem_cons (by simp), List.getElem_ofFn]
    rw [drops, List.drop_append_of_le_length le, drop_apps, first, List.flatMap_cons,
      List.append_assoc, AppInfo.ofBytes_toBytes_append]
  have flag : readLe32 ((r.body ++ tail).drop (4 + n * AppInfo.size)) = r.bootYmodemFlag := by
    rw [drops, List.drop_left' all, readLe32_le32_append]
  have crc : (r.body ++ tail).drop (8 + n * AppInfo.size) = tail := by
    rw [show 8 + n * AppInfo.size = 4 + (n * AppInfo.size + 4) by omega, drops, ← List.drop_drop,
      List.drop_left' all, List.drop_left' (length_le32 _)]
  simp only [ofBytes, magic, apps, flag, crc]

end OtaRecord

section Parse

variable (crc32 : List UInt8 → UInt32) {n : ℕ}

/-- What a record page holds on which only the CRC may be incomplete. -/
theorem parseRecord_body_append (r : OtaRecord n) (tail : List UInt8) :
    parseRecord crc32 n ((sealRecord crc32 r).body ++ tail) =
      if readLe32 tail = (sealRecord crc32 r).infoCrc32 then some (sealRecord crc32 r) else none := by
  have whole : ((sealRecord crc32 r).body ++ tail).take (OtaRecord.size n - 4) =
      (sealRecord crc32 r).body := List.take_left' (OtaRecord.length_body _)
  have crc : crc32 (sealRecord crc32 r).body = (sealRecord crc32 r).infoCrc32 := rfl
  have magic : (sealRecord crc32 r).magic = otaInfoMagic := rfl
  rw [parseRecord, OtaRecord.ofBytes_body_append, whole, crc]
  simp only [magic, ne_eq, not_true_eq_false, if_false]
  by_cases eq : readLe32 tail = (sealRecord crc32 r).infoCrc32
  · simp only [eq, not_true_eq_false, if_false, if_true]
    rfl
  · rw [if_pos (Ne.symm eq), if_neg eq]

theorem parseRecord_toBytes (r : OtaRecord n) :
    parseRecord crc32 n (sealRecord crc32 r).toBytes = some (sealRecord crc32 r) := by
  rw [OtaRecord.toBytes, parseRecord_body_append, readLe32_le32, if_pos rfl]

theorem parseRecord_erased :
    parseRecord crc32 n (List.replicate (OtaRecord.size n) erasedByte) = none := by
  have magic : (OtaRecord.ofBytes n (List.replicate (OtaRecord.size n) erasedByte)).magic ≠
      otaInfoMagic := by
    have four : min 4 (OtaRecord.size n) = 4 := by
      unfold OtaRecord.size
      omega
    simp only [OtaRecord.ofBytes, readLe32, List.take_replicate, four]
    decide
  rw [parseRecord, if_pos magic]

end Parse

end NeoRuntime.Ota

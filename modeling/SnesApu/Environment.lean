import SnesApu.Storage

/-!
# What Kodi provides

The codec reaches files, directory listings, virtual track names and localised
texts through Kodi only. They are parameters of the model, with the contents of
freshly allocated memory, which a short read leaves in the buffer.
-/

namespace SnesApu

structure DirEntry where
  label : Bytes
  path : Bytes
  isFolder : Bool := false
  deriving DecidableEq

/-- An open `kodi::vfs::CFile`; `read n` is what `Read(buffer, n)` delivers. -/
structure VfsFile where
  getLength : Int64
  read : ℕ → Bytes
  length_read_le : ∀ n, (read n).length ≤ n

structure Environment where
  openFile : Bytes → Option VfsFile
  getDirectory : Bytes → Bytes → Option (List DirEntry)
  getFileName : Bytes → Bytes
  getDirectoryName : Bytes → Bytes
  getTrack : Bytes → Bytes → Bytes × Int32
  trackExt : Bytes
  isalnum : UInt8 → Bool
  getLocalizedString : ℕ → Bytes
  newArray : (n : ℕ) → Vector UInt8 n

def endsWith (str suffix : Bytes) : Bool := suffix.isSuffixOf str

/-- `new uint8_t[len]` filled by `Read(data, len)`. -/
def readBuffer (env : Environment) (file : VfsFile) (len : Int64) : Except Fault Bytes :=
  if len < 0 then .error .badArrayNewLength
  else
    let n := len.toInt.toNat
    .ok (memCpy (env.newArray n).toList 0 (file.read n))

structure VfsFile.Delivers (file : VfsFile) (data : Bytes) : Prop where
  length : file.getLength.toInt = data.length
  read : ∀ n, file.read n = data.take n

def VfsFile.AllRead (file : VfsFile) : Prop :=
  0 ≤ file.getLength.toInt ∧
    (file.read file.getLength.toInt.toNat).length = file.getLength.toInt.toNat

theorem readBuffer_of_neg (env : Environment) (file : VfsFile) {len : Int64}
    (h : len.toInt < 0) : readBuffer env file len = .error .badArrayNewLength := by
  rw [readBuffer, if_pos (Int64.lt_iff_toInt_lt.mpr h)]

theorem readBuffer_of_nonneg (env : Environment) (file : VfsFile) {len : Int64}
    (h : 0 ≤ len.toInt) :
    readBuffer env file len =
      .ok (memCpy (env.newArray len.toInt.toNat).toList 0 (file.read len.toInt.toNat)) := by
  have hlt : ¬ len < 0 := by
    rw [Int64.lt_iff_toInt_lt, Int64.toInt_zero]
    omega
  rw [readBuffer, if_neg hlt]

theorem readBuffer_of_full {env : Environment} {file : VfsFile} {len : Int64}
    (hnn : 0 ≤ len.toInt) (h : (file.read len.toInt.toNat).length = len.toInt.toNat) :
    readBuffer env file len = .ok (file.read len.toInt.toNat) := by
  have hrest : (env.newArray len.toInt.toNat).toList.drop (0 + len.toInt.toNat) = [] :=
    List.drop_eq_nil_of_le (by simp)
  rw [readBuffer_of_nonneg env file hnn, memCpy, h, hrest, List.take_zero, List.nil_append,
    List.append_nil]

theorem VfsFile.Delivers.allRead {file : VfsFile} {data : Bytes} (h : file.Delivers data) :
    file.AllRead := by
  refine ⟨by rw [h.length]; exact Int.natCast_nonneg _, ?_⟩
  rw [h.read, h.length, Int.toNat_natCast, List.take_length]

theorem VfsFile.Delivers.readBuffer {env : Environment} {file : VfsFile} {data : Bytes}
    (h : file.Delivers data) : readBuffer env file file.getLength = .ok data := by
  rw [readBuffer_of_full h.allRead.1 h.allRead.2, h.read, h.length, Int.toNat_natCast,
    List.take_length]

def VfsFile.ofBytes (data : Bytes) : VfsFile where
  getLength := Int64.ofInt data.length
  read n := data.take n
  length_read_le n := by simp

theorem VfsFile.ofBytes_delivers {data : Bytes} (h : data.length < 2 ^ 63) :
    (VfsFile.ofBytes data).Delivers data where
  length := Int64.toInt_ofInt_of_le (by omega) (by omega)
  read _ := rfl

def Environment.ofFile (file : VfsFile) (items : List DirEntry) : Environment where
  openFile _ := some file
  getDirectory _ _ := some items
  getFileName path := path
  getDirectoryName _ := []
  getTrack _ filename := (filename, 0)
  trackExt := ascii "stream"
  isalnum c := (48 ≤ c && c ≤ 57) || (65 ≤ c && c ≤ 90) || (97 ≤ c && c ≤ 122)
  getLocalizedString _ := ascii "Voice/Speech"
  newArray n := Vector.replicate n 0xCD

end SnesApu

import OtterWorks.Migration.PackedFields
import OtterWorks.Migration.Timestamps

namespace OtterWorks.Reports

open Migration

/-- A Java method that may throw: the class of the exception. -/
abbrev Java := Except String

/-- One row of a result set, by the labels of its columns. -/
abbrev ResultSet := Fields

namespace ResultSet

def getString (rs : ResultSet) (label : String) : Option Text :=
  match rs.get label with
  | .text s => some s
  | _ => none

/-- `getInt` and `getLong`, which read a null as zero. -/
def getInt (rs : ResultSet) (label : String) : Int :=
  match rs.get label with
  | .int n => n
  | _ => 0

def getBigDecimal (rs : ResultSet) (label : String) : Option Decimal :=
  match rs.get label with
  | .decimal d => some d
  | _ => none

def getBytes (rs : ResultSet) (label : String) : Option Bytes :=
  match rs.get label with
  | .bytes b => some b
  | _ => none

end ResultSet

def trim (s : Text) : Text :=
  ((s.dropWhile fun c => decide (c.toNat ≤ 0x20)).reverse.dropWhile fun c => decide (c.toNat ≤ 0x20)).reverse

/-- Positions count characters: every text of the archive is of the basic plane. -/
def substring (s : Text) (first last : Nat) : Java Text :=
  if first ≤ last ∧ last ≤ s.length then .ok ((s.take last).drop first)
  else .error "java.lang.StringIndexOutOfBoundsException"

def indexOf (c : Char) (s : Text) (start : Nat) : Option Nat := ((s.drop start).findIdx? (· == c)).map (· + start)

def replace (old new : Char) (s : Text) : Text := s.map fun c => if c = old then new else c

/-- `String.format("%0<width>d", n)`. -/
def formatInt (width : Nat) (n : Int) : Text :=
  if n < 0 then '-' :: zeroPad (width - 1) n.natAbs else zeroPad width n.natAbs

namespace Db2Text

def rtrim (value : Option Text) : Option Text := value.map OtterWorks.rtrim

/-- `decodeCp037`, with the characters of Java's IBM037. -/
def decodeCp037 (ibm037 : UInt8 → Char) (raw : Option Bytes) : Option Text := raw.map fun b => b.map ibm037

/-- `setScale(scale, UNNECESSARY)`. -/
def setScaleExact (scale : Nat) (d : Decimal) : Java Decimal :=
  let dropped := 10 ^ (-(scale : Int) - d.exponent).toNat
  if -(scale : Int) ≤ d.exponent then .ok ⟨d.coeffAt (-(scale : Int)), -(scale : Int)⟩
  else if d.coeff % dropped = 0 then .ok ⟨d.coeff / dropped, -(scale : Int)⟩
  else .error "java.lang.ArithmeticException"

def decimal8 : Option Decimal → Java (Option Text)
  | none => .ok none
  | some d => do
    let d ← setScaleExact 8 d
    .ok (some (Decimal.fixed d))

def padRight (value : Text) (length : Nat) : Text := value ++ List.replicate (length - value.length) '0'

/-- What stands before a dot and after it. -/
def splitAtDot (timePart : Text) (dot : Option Nat) : Text × Text :=
  match dot with
  | some i => (timePart.take i, timePart.drop (i + 1))
  | none => (timePart, [])

def timestamp12FromJdbc : Option Text → Java (Option Text)
  | none => .ok none
  | some jdbcText => do
    let s := trim jdbcText
    let datePart ← substring s 0 10
    let timePart := replace ':' '.' (← substring s 11 s.length)
    -- an absent dot is at -1, and the search goes on from 0
    let after (dot : Option Nat) := (dot.map (· + 1)).getD 0
    let firstDot := indexOf '.' timePart 0
    let secondDot := indexOf '.' timePart (after firstDot)
    let (hms, fraction) := splitAtDot timePart (indexOf '.' timePart (after secondDot))
    .ok (some (datePart ++ '-' :: (hms ++ '.' :: padRight fraction 12)))

def timestamp12FromPgTimestamp (timestampText : Option Text) (nanosTail : Int) : Java (Option Text) :=
  match timestampText with
  | none => .ok none
  | some timestampText => do
    let s := replace 'T' ' ' (trim timestampText)
    let datePart ← substring s 0 10
    let timePart ← substring s 11 s.length
    let (hms, fraction) := splitAtDot timePart (indexOf '.' timePart 0)
    let fraction ← substring (padRight fraction 6) 0 6
    .ok (some (datePart ++ '-' :: (replace ':' '.' hms ++ '.' :: (fraction ++ formatInt 6 nanosTail))))

/-- Other texts than eight digits are returned as they are, trimmed. -/
def isoDateFromYyyymmdd (yyyymmdd : Option Text) : Option Text :=
  yyyymmdd.map fun s =>
    let s := trim s
    if s.length ≠ 8 ∨ !s.all isDecimal then s
    else s.take 4 ++ '-' :: ((s.drop 4).take 2 ++ '-' :: (s.drop 6).take 2)

def yyyymmddFromIso (iso : Option Text) : Option Text := iso.map fun s => (trim s).filter (· ≠ '-')

end Db2Text

structure RawEvent where
  auditKey : Option Text
  archKey : Option Text
  eventType : Option Text
  actorId : Option Text
  retentionClass : Option Text
  dispositionCode : Option Text
  clientIp : Option Text
  detailText : Option Text
  deriving DecidableEq, Repr

structure ArchiveEvent where
  raw : RawEvent
  auditKey : Option Text
  archKey : Option Text
  eventType : Option Text
  eventTs : Option Text
  actorId : Option Text
  retentionClass : Option Text
  dispositionCode : Option Text
  clientIp : Option Text
  detailText : Option Text
  deriving DecidableEq, Repr

structure RawVersion where
  archKey : Option Text
  docId : Option Text
  retentionClass : Option Text
  ownerName : Option Text
  dispositionDt : Option Text
  legalHoldFlag : Option Text
  deriving DecidableEq, Repr

structure RetentionPolicy where
  policyCode : Option Text
  policyDesc : Option Text
  retentionYears : Int
  successorCode : Option Text
  activeFlag : Option Text
  dispositionAction : Option Text
  effectiveTs : Option Text
  deriving DecidableEq, Repr

structure ArchiveVersion where
  raw : RawVersion
  archKey : Option Text
  versionNo : Int
  retentionClass : Option Text
  lastAccessTs : Option Text
  storageCharge : Option Text
  unitRate : Option Text
  ownerName : Option Text
  dispositionDt : Option Text
  legalHold : Bool
  checksumAlg : Option Text
  contentSha256 : Option Text
  byteSize : Int
  sourceSys : Option Text
  policy : Option RetentionPolicy
  events : List ArchiveEvent
  deriving DecidableEq, Repr

/-- The mapping of an event both stores share, but for the text of its timestamp. -/
def mapEventWith (rs : ResultSet) (eventTs : Option Text) : ArchiveEvent :=
  let raw : RawEvent :=
    { auditKey := rs.getString "AUDIT_KEY"
      archKey := rs.getString "ARCH_KEY"
      eventType := rs.getString "EVENT_TYPE"
      actorId := rs.getString "ACTOR_ID"
      retentionClass := rs.getString "RETENTION_CLASS"
      dispositionCode := rs.getString "DISPOSITION_CODE"
      clientIp := rs.getString "CLIENT_IP"
      detailText := rs.getString "DETAIL_TEXT" }
  { raw := raw
    auditKey := Db2Text.rtrim raw.auditKey
    archKey := Db2Text.rtrim raw.archKey
    eventType := Db2Text.rtrim raw.eventType
    eventTs := eventTs
    actorId := Db2Text.rtrim raw.actorId
    retentionClass := Db2Text.rtrim raw.retentionClass
    dispositionCode := Db2Text.rtrim raw.dispositionCode
    clientIp := Db2Text.rtrim raw.clientIp
    detailText := Db2Text.rtrim raw.detailText }

/-- The mapping of a version both stores share, but for its timestamp, owner and date. -/
def mapVersionWith (rs : ResultSet) (lastAccessTs ownerName rawDispositionDt dispositionDt : Option Text) :
    Java ArchiveVersion := do
  let raw : RawVersion :=
    { archKey := rs.getString "ARCH_KEY"
      docId := rs.getString "DOC_ID"
      retentionClass := rs.getString "RETENTION_CLASS"
      ownerName := ownerName
      dispositionDt := rawDispositionDt
      legalHoldFlag := rs.getString "LEGAL_HOLD_FLAG" }
  let storageCharge ← Db2Text.decimal8 (rs.getBigDecimal "STORAGE_CHARGE")
  let unitRate ← Db2Text.decimal8 (rs.getBigDecimal "UNIT_RATE")
  .ok
    { raw := raw
      archKey := Db2Text.rtrim raw.archKey
      versionNo := rs.getInt "VERSION_NO"
      retentionClass := Db2Text.rtrim raw.retentionClass
      lastAccessTs := lastAccessTs
      storageCharge := storageCharge
      unitRate := unitRate
      ownerName := Db2Text.rtrim raw.ownerName
      dispositionDt := dispositionDt
      legalHold := Db2Text.rtrim raw.legalHoldFlag = some ['Y']
      checksumAlg := Db2Text.rtrim (rs.getString "CHECKSUM_ALG")
      contentSha256 := Db2Text.rtrim (rs.getString "CONTENT_SHA256")
      byteSize := rs.getInt "BYTE_SIZE"
      sourceSys := Db2Text.rtrim (rs.getString "SOURCE_SYS")
      policy := none
      events := [] }

namespace Db2ArchiveStore

def mapVersion (ibm037 : UInt8 → Char) (rs : ResultSet) : Java ArchiveVersion := do
  let ownerName := Db2Text.decodeCp037 ibm037 (rs.getBytes "OWNER_NAME")
  let dispositionDt := Db2Text.decodeCp037 ibm037 (rs.getBytes "DISPOSITION_DT")
  let lastAccessTs ← Db2Text.timestamp12FromJdbc (rs.getString "LAST_ACCESS_TS")
  mapVersionWith rs lastAccessTs ownerName dispositionDt (Db2Text.isoDateFromYyyymmdd dispositionDt)

def mapEvent (rs : ResultSet) : Java ArchiveEvent := do
  let eventTs ← Db2Text.timestamp12FromJdbc (rs.getString "EVENT_TS")
  .ok (mapEventWith rs eventTs)

end Db2ArchiveStore

namespace PostgresArchiveStore

def mapVersion (rs : ResultSet) : Java ArchiveVersion := do
  let lastAccessTs ← Db2Text.timestamp12FromPgTimestamp (rs.getString "LAST_ACCESS_TS")
    (rs.getInt "LAST_ACCESS_TS_NANOS_TAIL")
  mapVersionWith rs lastAccessTs (rs.getString "OWNER_NAME") (Db2Text.yyyymmddFromIso (rs.getString "DISPOSITION_DT"))
    (Db2Text.rtrim (rs.getString "DISPOSITION_DT"))

def mapEvent (rs : ResultSet) : Java ArchiveEvent := do
  let eventTs ← Db2Text.timestamp12FromPgTimestamp (rs.getString "EVENT_TS") (rs.getInt "EVENT_TS_NANOS_TAIL")
  .ok (mapEventWith rs eventTs)

end PostgresArchiveStore

/-- `String.join("|", …)`, which writes a null as `null`. -/
def joinColumns (columns : List (Option Text)) : Text := ['|'].intercalate (columns.map fun s => s.getD (text "null"))

namespace BusinessHash

/-- The text that `docarch` hashes. -/
def docarchText (v : ArchiveVersion) : Text :=
  joinColumns [v.raw.archKey, Db2Text.rtrim v.raw.docId, some (toString v.versionNo).toList, v.retentionClass,
    v.lastAccessTs, v.storageCharge, v.unitRate, v.ownerName, v.raw.dispositionDt, Db2Text.rtrim v.raw.legalHoldFlag,
    v.contentSha256, some (toString v.byteSize).toList]

/-- The text that `fileaud` hashes. -/
def fileaudText (e : ArchiveEvent) : Text :=
  joinColumns [e.raw.auditKey, Db2Text.rtrim e.raw.archKey, e.eventType, e.eventTs, e.actorId, e.retentionClass,
    e.dispositionCode, e.clientIp, e.detailText]

def sha256Hex (sha256 : Bytes → Hash) (s : Text) : String := hexUpper (sha256 (encodeText s))

def docarch (sha256 : Bytes → Hash) (v : ArchiveVersion) : String := sha256Hex sha256 (docarchText v)

def fileaud (sha256 : Bytes → Hash) (e : ArchiveEvent) : String := sha256Hex sha256 (fileaudText e)

end BusinessHash

end OtterWorks.Reports

import StorageEngine.Call.Basic

/-!
# Inserting tuples

A tuple goes to the first page of its heap table that has room for it.  Pages are looked at
under a shared lock, which is given up again at once where there is no room; only the page that
takes the tuple is locked exclusively.  If no page has room, an empty page is appended to the
table.  In a counter table, each byte of the tuple names a page whose first byte counts up.
-/

namespace StorageEngine.Call

/-! ## Heap tables -/

/-- Whether a heap table with pages of `pageSize` bytes can store a tuple at all. -/
def fits (pageSize : Nat) (tuple : Bytes) : Bool :=
  tuple.length ≠ 0
    && tuple.length + SlottedPage.slotSize ≤ pageSize - SlottedPage.headerSize

/-- Stores a tuple in a copy of a page that the transaction holds the exclusive lock on. -/
def store (txn : TransactionId) (tuple : Bytes) (copy : CopyNo) (pool : Pool) :
    Progress × Pool :=
  let page := pool.copy copy
  match SlottedPage.insert page.bytes tuple with
  | (.error failure, bytes) =>
    fail (failure.map .page) (pool.setCopy copy { page with bytes })
  | (.ok slot, bytes) =>
    let record := some ⟨page.id, slot⟩
    finish (.inserted record) record
      ((pool.setCopy copy { page with bytes }).installAll txn [copy])

/-- Stores a tuple in a page. -/
def runPlace (txn : TransactionId) (page : PageId) (tuple : Bytes) (pool : Pool) :
    Progress × Pool :=
  match pool.fetch txn page .readWrite with
  | (.waiting, pool) => (.waiting (.place page tuple), pool)
  | (.failed failure, pool) => fail failure pool
  | (.page copy, pool) => store txn tuple copy pool

/-- Stores a tuple in a page appended to its table. -/
def append (txn : TransactionId) (no : StoreNo) (tuple : Bytes) (pool : Pool) :
    Progress × Pool :=
  match (pool.store no).allocate with
  | (.error failure, store) => fail failure (pool.setStore no store)
  | (.ok page, store) => runPlace txn page tuple (pool.setStore no store)

/-- Stores a tuple in the first of the given pages that has room for it, or else in a new page.
It is known of the first page whether the transaction had a lock on it before, if the call has
waited for that page. -/
def runProbe (txn : TransactionId) (no : StoreNo) (tuple : Bytes) :
    Option Bool → List PageNo → Pool → Progress × Pool
  | _, [], pool => append txn no tuple pool
  | known, pageNo :: rest, pool =>
    let page : PageId := ⟨(pool.store no).table, pageNo⟩
    let alreadyHeld := known.getD (pool.holdsLock txn page)
    match pool.fetch txn page .readOnly with
    | (.waiting, pool) => (.waiting (.probe no tuple pageNo alreadyHeld rest), pool)
    | (.failed failure, pool) => fail failure pool
    | (.page copy, pool) =>
      match SlottedPage.hasRoom (pool.copy copy).bytes tuple.length with
      | .error fault => fail (.fault fault) pool
      | .ok true => runPlace txn page tuple pool
      | .ok false =>
        runProbe txn no tuple none rest
          (if alreadyHeld then pool else pool.releasePage txn page)

/-! ## Counter tables -/

/-- The bytes of a page with the first one counted up. -/
def countUp : Bytes → Except Fault Bytes
  | [] => .error .outOfRange
  | value :: rest => .ok ((value + 1) :: rest)

/-- Counts up the pages that the given bytes name, after those in `touched`. -/
def runCount (txn : TransactionId) (table : TableId) :
    List CopyNo → Option RecordId → Bytes → Pool → Progress × Pool
  | touched, record, [], pool =>
    finish (.inserted record) record (pool.installAll txn touched)
  | touched, record, no :: rest, pool =>
    let id : PageId := ⟨table, UInt32.ofNat no.toNat⟩
    match pool.fetch txn id .readWrite with
    | (.waiting, pool) => (.waiting (.count table touched record no rest), pool)
    | (.failed failure, pool) => (.done { Outcome.failure failure with record }, pool)
    | (.page copy, pool) =>
      let page := pool.copy copy
      match countUp page.bytes with
      | .error fault => (.done { Outcome.failure (.fault fault) with record }, pool)
      | .ok bytes =>
        runCount txn table (touched ++ [copy])
          (some ⟨id, UInt32.ofNat (touched.length + 1)⟩) rest
          (pool.setCopy copy { page with bytes })

/-! ## Insertion -/

/-- Inserts a tuple into a table. -/
def startInsert (txn : TransactionId) (table : TableId) (tuple : Bytes) (pool : Pool) :
    Progress × Pool :=
  match pool.storeOf table with
  | .error failure => fail failure pool
  | .ok no =>
    let store := pool.store no
    match store.medium with
    | .counters _ => runCount txn store.table [] none tuple pool
    | .heap file =>
      if fits file.pageSize tuple then
        match store.pageNos with
        | .error failure => fail failure pool
        | .ok pages => runProbe txn no tuple none pages pool
      else fail (.error (.page .insufficientSpace)) pool

end StorageEngine.Call

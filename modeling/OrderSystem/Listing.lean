/-
# The list endpoints

`GET` on the orders, the stock logs and the products answers with one page of the matching rows,
newest first, and with the `page` and the `page_size` it was asked for.  The three services do
the same work twice:

* the handler (`Handler.list`, `Handler.listLogs`) reads the two numbers with
  `parsePositiveInt`, which replaces a text that is not a positive number by a default, and puts
  what it read into the reply;
* the service (`Service.List`, `Service.ListLogs`) replaces a size over 100 by 20, computes
  `(page - 1) * pageSize` in machine arithmetic and hands it to gorm, which leaves an `OFFSET`
  that is not positive out of the query.

So the reply tells the truth as long as the size was not replaced and the offset did not wrap
(`Pageable`, `pages_exact`), and of any other page there are rows for which it does not
(`unpageable_inexact`).
-/
import OrderSystem.InventorySvc.Model
import OrderSystem.OrderSvc.Service

namespace OrderSystem

/-! ## 1. Numbers in a query string -/

/-- The value of decimal digits; `none` when some byte is not one. -/
def digitsValue : Nat → GoString → Option Nat
  | n, [] => some n
  | n, b :: rest =>
    if 0x30 ≤ b ∧ b ≤ 0x39 then digitsValue (n * 10 + (b.toNat - 0x30)) rest else none

/-- `strconv.ParseInt(s, 10, bits)`: an optional sign and at least one digit, with a value in
the range of the type. -/
def parseInt (s : GoString) (bits : Nat) : Option Int :=
  let digits := if s.head? = some 0x2B ∨ s.head? = some 0x2D then s.tail else s
  if digits = [] then none
  else (digitsValue 0 digits).bind fun n =>
    let value : Int := if s.head? = some 0x2D then -n else n
    if -(2 ^ (bits - 1)) ≤ value ∧ value < 2 ^ (bits - 1) then some value else none

/-- `strconv.Atoi`, where `int` has 64 bits. -/
def atoi (s : GoString) : Option Int := parseInt s 64

/-- `parsePositiveInt`. -/
def parsePositiveInt (raw : GoString) (fallback : Int) : Int :=
  match atoi raw with
  | none => fallback
  | some value => if value ≤ 0 then fallback else value

theorem parsePositiveInt_pos {fallback : Int} (raw : GoString) (h : 0 < fallback) :
    0 < parsePositiveInt raw fallback := by
  unfold parsePositiveInt
  split
  · exact h
  · split
    · exact h
    · omega

/-! ## 2. One page -/

section

variable {ρ : Type}

/-- `Offset((page - 1) * pageSize).Limit(pageSize)` on the rows of a query. -/
def pageOf (rows : List ρ) (page pageSize : Int) : List ρ :=
  let offset := wrap64 ((page - 1) * pageSize)
  -- gorm writes no OFFSET for a value that is not positive
  let rest := if 0 < offset then rows.drop offset.toNat else rows
  rest.take pageSize.toNat

/-- Leaving the `OFFSET` out and skipping no row are the same query. -/
theorem pageOf_eq (rows : List ρ) (page pageSize : Int) :
    pageOf rows page pageSize =
      (rows.drop (wrap64 ((page - 1) * pageSize)).toNat).take pageSize.toNat := by
  simp only [pageOf]
  by_cases hpos : 0 < wrap64 ((page - 1) * pageSize)
  · rw [if_pos hpos]
  · have hzero : (wrap64 ((page - 1) * pageSize)).toNat = 0 := by omega
    rw [if_neg hpos, hzero, List.drop_zero]

/-- `List` and `ListLogs` of the services on the matching rows, newest first: the defaults, the
count and one page. -/
def listRows (rows : List ρ) (page pageSize : Int) : List ρ × Nat :=
  let page := if page ≤ 0 then 1 else page
  let pageSize := if pageSize ≤ 0 ∨ 100 < pageSize then 20 else pageSize
  (pageOf rows page pageSize, rows.length)

/-- The data of a successful reply. -/
structure ListReply (ρ : Type) where
  list : List ρ
  total : Nat
  page : Int
  pageSize : Int
  deriving DecidableEq

/-- The data of `fail(c, status, code, message)`. -/
structure Refusal where
  status : Nat
  code : Nat
  message : GoString

/-- What the three handlers do with `page` and `page_size`: the service gets them and the reply
shows them. -/
def replyPage (service : Int → Int → List ρ × Nat) (rawPage rawSize : GoString) :
    ListReply ρ :=
  let page := parsePositiveInt rawPage 1
  let pageSize := parsePositiveInt rawSize 20
  let (list, total) := service page pageSize
  ⟨list, total, page, pageSize⟩

end

/-! ## 3. The three endpoints -/

namespace OrderSvc

/-- `Handler.list`: the orders of the authenticated user. -/
def handleList (db : DB) (userID : Option Int) (rawPage rawSize : GoString) :
    Except Refusal (ListReply (Nat × Order)) :=
  match userID.filter fun userID => decide (0 < userID) with
  | none => .error ⟨401, 40121, str "invalid authenticated user"⟩
  | some userID => .ok (replyPage (listRows (ordersOf db userID).reverse) rawPage rawSize)

/-- On a database nobody writes to, the two queries of `List` give one page and the count. -/
theorem Reader.list_reads (db : DB) (userID page pageSize : Int) :
    ((Reader.list userID page pageSize).read db).bind (Reader.read db) =
      some (.listed userID (.ok (listRows (ordersOf db userID).reverse page pageSize))) := by
  simp only [Reader.list, Reader.read, Option.bind_some, listOrders, listRows, pageOf_eq,
    List.length_reverse]

end OrderSvc

namespace InventorySvc

/-- The rows `ListLogs` selects, newest first; `logs` is the table in order of id. -/
def scopedLogs (logs : List StockLog) (productID : Option Int) : List StockLog :=
  (logs.filter fun log => decide (∀ p ∈ productID, 0 < p → log.productID = p)).reverse

/-- `Handler.listLogs`. -/
def handleListLogs (logs : List StockLog) (rawProductID rawPage rawSize : GoString) :
    Except Refusal (ListReply StockLog) :=
  let raw := trimSpace rawProductID
  if raw = [] then .ok (replyPage (listRows (scopedLogs logs none)) rawPage rawSize)
  else
    match parseInt raw 64 with
    | none => .error ⟨400, 40014, str "invalid product_id"⟩
    | some parsed =>
      if parsed < 0 then .error ⟨400, 40014, str "invalid product_id"⟩
      else
        let productID := if 0 < parsed then some parsed else none
        .ok (replyPage (listRows (scopedLogs logs productID)) rawPage rawSize)

end InventorySvc

namespace CatalogSvc

/-- A row of `catalog_products`. -/
structure Product where
  id : Int
  name : GoString
  description : GoString
  priceFen : Int
  status : Int
  deriving DecidableEq

/-- The rows `List` selects, newest first; `products` is the table in order of id. -/
def selected (products : List Product) (status : Option Int) : List Product :=
  (products.filter fun product => decide (∀ s ∈ status, product.status = s)).reverse

/-- `Handler.list`. -/
def handleList (products : List Product) (rawStatus rawPage rawSize : GoString) :
    Except Refusal (ListReply Product) :=
  let raw := trimSpace rawStatus
  if raw = [] then .ok (replyPage (listRows (selected products none)) rawPage rawSize)
  else
    match parseInt raw 8 with
    | none => .error ⟨400, 40003, str "invalid status"⟩
    | some parsed => .ok (replyPage (listRows (selected products (some parsed))) rawPage rawSize)

end CatalogSvc

/-- `endpoint` answers a `page` and a `page_size` from the matching rows `rows`, which are given
newest first. -/
inductive Lists : {ρ : Type} → List ρ →
    (GoString → GoString → Except Refusal (ListReply ρ)) → Prop
  | orders (db : OrderSvc.DB) (userID : Int) (hpos : 0 < userID) :
    Lists (OrderSvc.ordersOf db userID).reverse (OrderSvc.handleList db (some userID))
  /-- without a `product_id`, or with the `product_id` 0 -/
  | logs (logs : List InventorySvc.StockLog) (rawProductID : GoString)
    (h : trimSpace rawProductID = [] ∨ parseInt (trimSpace rawProductID) 64 = some 0) :
    Lists logs.reverse (InventorySvc.handleListLogs logs rawProductID)
  | logsOf (logs : List InventorySvc.StockLog) (rawProductID : GoString) (productID : Int)
    (h : parseInt (trimSpace rawProductID) 64 = some productID) (hpos : 0 < productID) :
    Lists (logs.filter fun log => decide (log.productID = productID)).reverse
      (InventorySvc.handleListLogs logs rawProductID)
  | products (products : List CatalogSvc.Product) (rawStatus : GoString)
    (h : trimSpace rawStatus = []) :
    Lists products.reverse (CatalogSvc.handleList products rawStatus)
  | productsIn (products : List CatalogSvc.Product) (rawStatus : GoString) (status : Int)
    (h : parseInt (trimSpace rawStatus) 8 = some status) :
    Lists (products.filter fun product => decide (product.status = status)).reverse
      (CatalogSvc.handleList products rawStatus)

/-- Whichever endpoint answers, it answers from its rows with the page of the query. -/
theorem Lists.eq_replyPage {ρ : Type} {rows : List ρ}
    {endpoint : GoString → GoString → Except Refusal (ListReply ρ)} (h : Lists rows endpoint)
    (rawPage rawSize : GoString) :
    endpoint rawPage rawSize = .ok (replyPage (listRows rows) rawPage rawSize) := by
  cases h with
  | orders db userID hpos =>
    have huser : (some userID).filter (fun u => decide (0 < u)) = some userID :=
      Option.filter_some_pos (decide_eq_true hpos)
    simp only [OrderSvc.handleList, huser]
  | logs logs rawProductID h =>
    have hall : InventorySvc.scopedLogs logs none = logs.reverse := by
      simp [InventorySvc.scopedLogs]
    rcases h with h | h
    · simp [InventorySvc.handleListLogs, h, hall]
    · have hne : trimSpace rawProductID ≠ [] := by
        rintro hnil
        exact absurd (hnil ▸ h) (by decide)
      simp [InventorySvc.handleListLogs, hne, h, hall]
  | logsOf logs rawProductID productID h hpos =>
    have hne : trimSpace rawProductID ≠ [] := by
      rintro hnil
      exact absurd (hnil ▸ h) (by simp [parseInt])
    simp [InventorySvc.handleListLogs, InventorySvc.scopedLogs, hne, h, hpos, hpos.le]
  | products products rawStatus h =>
    simp [CatalogSvc.handleList, CatalogSvc.selected, h]
  | productsIn products rawStatus status h =>
    have hne : trimSpace rawStatus ≠ [] := by
      rintro hnil
      exact absurd (hnil ▸ h) (by simp [parseInt])
    simp [CatalogSvc.handleList, CatalogSvc.selected, hne, h]

/-- A query that is not refused is answered by one of these. -/
theorem lists_of_ok :
    (∀ (db : OrderSvc.DB) userID rawPage rawSize reply,
      OrderSvc.handleList db userID rawPage rawSize = .ok reply →
      ∃ rows, Lists rows (OrderSvc.handleList db userID)) ∧
    (∀ logs rawProductID rawPage rawSize reply,
      InventorySvc.handleListLogs logs rawProductID rawPage rawSize = .ok reply →
      ∃ rows, Lists rows (InventorySvc.handleListLogs logs rawProductID)) ∧
    ∀ products rawStatus rawPage rawSize reply,
      CatalogSvc.handleList products rawStatus rawPage rawSize = .ok reply →
      ∃ rows, Lists rows (CatalogSvc.handleList products rawStatus) := by
  refine ⟨?_, ?_, ?_⟩
  · intro db userID rawPage rawSize reply hok
    unfold OrderSvc.handleList at hok
    split at hok
    · cases hok
    · rename_i u huser
      obtain ⟨rfl, hpos⟩ := Option.filter_eq_some_iff.mp huser
      exact ⟨_, .orders db u (of_decide_eq_true hpos)⟩
  · intro logs rawProductID rawPage rawSize reply hok
    by_cases hnil : trimSpace rawProductID = []
    · exact ⟨_, .logs logs rawProductID (.inl hnil)⟩
    · simp only [InventorySvc.handleListLogs, if_neg hnil] at hok
      split at hok
      · cases hok
      · rename_i parsed hparsed
        by_cases hpos : 0 < parsed
        · exact ⟨_, .logsOf logs rawProductID parsed hparsed hpos⟩
        · have hnonneg : ¬ parsed < 0 := fun hneg => by simp [hneg] at hok
          obtain rfl : parsed = 0 := by omega
          exact ⟨_, .logs logs rawProductID (.inr hparsed)⟩
  · intro products rawStatus rawPage rawSize reply hok
    by_cases hnil : trimSpace rawStatus = []
    · exact ⟨_, .products products rawStatus hnil⟩
    · simp only [CatalogSvc.handleList, if_neg hnil] at hok
      split at hok
      · cases hok
      · rename_i parsed hparsed
        exact ⟨_, .productsIn products rawStatus parsed hparsed⟩

/-! ## 4. What a page holds -/

section

variable {ρ : Type}

/-- The rows at the positions `(p - 1) * s` to `p * s - 1`. -/
def window (rows : List ρ) (p s : Int) : List ρ := (rows.drop ((p - 1) * s).toNat).take s.toNat

/-- The number of pages of `s` rows that `n` rows fill. -/
def pageCount (n s : Nat) : Nat := (n + s - 1) / s

/-- The service keeps the size, and the offset of the page is a machine integer. -/
def Pageable (p s : Int) : Prop := s ≤ 100 ∧ (p - 1) * s ≤ maxInt64

instance (p s : Int) : Decidable (Pageable p s) := inferInstanceAs (Decidable (_ ∧ _))

theorem listRows_exact {p s : Int} (rows : List ρ) (hp : 0 < p) (hs : 0 < s)
    (h : Pageable p s) : (listRows rows p s).1 = window rows p s := by
  have hsize : ¬ (s ≤ 0 ∨ 100 < s) := by
    have := h.1
    omega
  have hoffset : wrap64 ((p - 1) * s) = (p - 1) * s := by
    have hnonneg : 0 ≤ (p - 1) * s := Int.mul_nonneg (by omega) hs.le
    exact wrap64_eq ⟨by omega, h.2⟩
  simp only [listRows, if_neg (not_le.mpr hp), if_neg hsize, pageOf_eq, hoffset, window]

/-- For any other page there are rows of which the service returns something else. -/
theorem unpageable_inexact {p s : Int} (hp : 0 < p) (hs : 0 < s) (h : ¬ Pageable p s) :
    ∃ rows : List Nat, (listRows rows p s).1 ≠ window rows p s := by
  have hp' : ¬ p ≤ 0 := not_le.mpr hp
  have hnonneg : 0 ≤ (p - 1) * s := Int.mul_nonneg (by omega) hs.le
  by_cases hs' : s ≤ 100
  · -- the offset wraps: the row at the true offset is not the first one of the page
    have hbig : maxInt64 < (p - 1) * s := lt_of_not_ge fun hle => h ⟨hs', hle⟩
    have hlt : (wrap64 ((p - 1) * s)).toNat < ((p - 1) * s).toNat := by
      have := (wrap64_range ((p - 1) * s)).2
      unfold maxInt64 at this hbig
      omega
    refine ⟨List.range (((p - 1) * s).toNat + 1), fun heq => ?_⟩
    have hhead := congrArg (fun l => l[0]?) heq
    simp only [listRows, if_neg hp', if_neg (show ¬ (s ≤ 0 ∨ 100 < s) by omega), pageOf_eq,
      window] at hhead
    rw [List.getElem?_take_of_lt (by omega), List.getElem?_take_of_lt (by omega)] at hhead
    simp only [List.getElem?_drop, Nat.add_zero] at hhead
    rw [List.getElem?_range (by omega), List.getElem?_range (by omega)] at hhead
    exact absurd (Option.some.inj hhead) (by omega)
  · -- the size is replaced: the page has at most 20 rows and not `s`
    refine ⟨List.range (((p - 1) * s).toNat + s.toNat), fun heq => ?_⟩
    have hlen := congrArg List.length heq
    simp only [listRows, if_neg hp', if_pos (show s ≤ 0 ∨ 100 < s by omega), pageOf_eq, window,
      List.length_take, List.length_drop, List.length_range] at hlen
    omega

/-- The pages of a list, put together, are its beginning. -/
theorem flatMap_pages (rows : List ρ) (s m : Nat) :
    (List.range m).flatMap (fun k => (rows.drop (k * s)).take s) = rows.take (m * s) := by
  induction m with
  | zero => simp
  | succ m ih =>
    rw [List.range_succ, List.flatMap_append, ih, Nat.succ_mul, List.take_add]
    simp

theorem le_pageCount_mul {s : Nat} (n : Nat) (hs : 0 < s) : n ≤ pageCount n s * s := by
  have h := Nat.lt_div_mul_add hs (a := n + s - 1)
  unfold pageCount
  omega

/-- A reply shows the rows of the page and of the size that stand in it, and the pages `1` to
`⌈n / s⌉` are all rows, each once, as long as the size is at most 100 and the offset is a
machine integer. -/
theorem pages_exact {rows : List ρ}
    {endpoint : GoString → GoString → Except Refusal (ListReply ρ)} (h : Lists rows endpoint) :
    (∀ rawPage rawSize reply, endpoint rawPage rawSize = .ok reply →
      0 < reply.page ∧ 0 < reply.pageSize ∧
        (Pageable reply.page reply.pageSize →
          reply.list = window rows reply.page reply.pageSize)) ∧
    ∀ (rawSize : GoString) (rawPages : Nat → GoString) (replies : Nat → ListReply ρ) (s : Int),
      (∀ k < pageCount rows.length s.toNat,
        endpoint (rawPages k) rawSize = .ok (replies k) ∧ (replies k).page = k + 1 ∧
          (replies k).pageSize = s ∧ Pageable (k + 1) s) →
      0 < s →
      (List.range (pageCount rows.length s.toNat)).flatMap (fun k => (replies k).list) = rows := by
  have hreply : ∀ rawPage rawSize reply, endpoint rawPage rawSize = .ok reply →
      0 < reply.page ∧ 0 < reply.pageSize ∧
        (Pageable reply.page reply.pageSize →
          reply.list = window rows reply.page reply.pageSize) := by
    intro rawPage rawSize reply hok
    obtain rfl := Except.ok.inj ((h.eq_replyPage rawPage rawSize).symm.trans hok)
    have hp := parsePositiveInt_pos rawPage (show (0 : Int) < 1 by decide)
    have hs := parsePositiveInt_pos rawSize (show (0 : Int) < 20 by decide)
    exact ⟨hp, hs, listRows_exact rows hp hs⟩
  refine ⟨hreply, ?_⟩
  intro rawSize rawPages replies s hall hs
  have hpage : ∀ k ∈ List.range (pageCount rows.length s.toNat),
      (replies k).list = (rows.drop (k * s.toNat)).take s.toNat := by
    intro k hk
    obtain ⟨hok, hp, hsize, hable⟩ := hall k (List.mem_range.mp hk)
    have hlist := (hreply _ _ _ hok).2.2 (hp ▸ hsize ▸ hable)
    rw [hlist, hp, hsize, window]
    congr 2
    rw [show (k : Int) + 1 - 1 = (k : Nat) by omega, Int.toNat_mul (by omega) hs.le,
      Int.toNat_natCast]
  rw [List.flatMap_congr hpage, flatMap_pages]
  exact List.take_of_length_le (le_pageCount_mul _ (by omega))

end

/-- `n` products on sale. -/
def shelf (n : Nat) : List CatalogSvc.Product :=
  (List.range n).map fun i => ⟨i + 1, [0x70], [], 100, 1⟩

/-- Three products in pages of two. -/
theorem pages_exact_three :
    (∃ reply, CatalogSvc.handleList (shelf 3) [] (str "2") (str "2") = .ok reply ∧
      reply.list = window (shelf 3).reverse reply.page reply.pageSize) ∧
    (List.range 2).flatMap (fun k =>
      (replyPage (listRows (shelf 3).reverse) [0x31 + UInt8.ofNat k] (str "2")).list) =
      (shelf 3).reverse := by
  have hlists : Lists (shelf 3).reverse (CatalogSvc.handleList (shelf 3) []) :=
    .products (shelf 3) [] rfl
  constructor
  · have hok := hlists.eq_replyPage (str "2") (str "2")
    exact ⟨_, hok, ((pages_exact hlists).1 _ _ _ hok).2.2 (by decide +kernel)⟩
  · refine (pages_exact hlists).2 (str "2") (fun k => [0x31 + UInt8.ofNat k])
      (fun k => replyPage (listRows (shelf 3).reverse) [0x31 + UInt8.ofNat k] (str "2")) 2
      (fun k hk => ⟨hlists.eq_replyPage _ _, ?_⟩) (by decide)
    have hk' : k = 0 ∨ k = 1 := by
      have : pageCount (shelf 3).reverse.length (2 : Int).toNat = 2 := by decide +kernel
      omega
    rcases hk' with rfl | rfl
    · decide +kernel
    · decide +kernel

/-- `page_size=101` is answered with 20 rows under the name of 101, and the page
`4611686018427387905` of four rows each is the first page once more. -/
theorem pages_inexact :
    (∃ reply, CatalogSvc.handleList (shelf 21) [] (str "1") (str "101") = .ok reply ∧
      reply.pageSize = 101 ∧ reply.list ≠ window (shelf 21).reverse reply.page reply.pageSize) ∧
    ∃ reply, CatalogSvc.handleList (shelf 1) [] (str "4611686018427387905") (str "4") =
        .ok reply ∧
      reply.page = 4611686018427387905 ∧ reply.pageSize = 4 ∧ reply.list = shelf 1 ∧
        window (shelf 1).reverse reply.page reply.pageSize = [] := by
  constructor
  · exact ⟨_, (Lists.products (shelf 21) [] rfl).eq_replyPage _ _, by decide +kernel,
      by decide +kernel⟩
  · exact ⟨_, (Lists.products (shelf 1) [] rfl).eq_replyPage _ _, by decide +kernel,
      by decide +kernel, by decide +kernel, by decide +kernel⟩

end OrderSystem

import BookingApp.Booking.Payable
import BookingApp.Office.Offers

/-!
# What the catalogue quotes (`public/public-catalog.controller.ts`)

A visitor is shown who performs a service and what it costs with each of them, and books later. The
catalogue works that out by itself, and so do the search for slots and the transaction of a
reservation. As long as nobody changes the catalogue in between, all three speak of the same
employees, and what is charged is what was quoted.
-/

set_option autoImplicit false

namespace BookingApp.PublicCatalog

open ReadCommitted Code

section Model

/-- An entry of the list, without its texts. -/
structure ServiceEmployee where
  id : String
  displayName : String
  displayOrder : Int
  price : Money
  deriving DecidableEq, Repr

/-- `employee: { isBookableOnline: true, archivedAt: null }` -/
def bookableEmployee (d : Db) (link : EmployeeService) : Option Employee :=
  (Table.find link.employeeId d.employees).filter fun e =>
    decide (e.isBookableOnline = true ∧ e.archivedAt = none)

/-- `orderBy: [{ employee: { displayOrder: 'asc' } }, { employee: { displayName: 'asc' } }]` -/
def shownBefore (a b : EmployeeService × Employee) : Prop :=
  a.2.displayOrder < b.2.displayOrder ∨
    a.2.displayOrder = b.2.displayOrder ∧ a.2.displayName ≤ b.2.displayName

instance : DecidableRel shownBefore := fun a b =>
  inferInstanceAs (Decidable (a.2.displayOrder < b.2.displayOrder ∨
    a.2.displayOrder = b.2.displayOrder ∧ a.2.displayName ≤ b.2.displayName))

/-- The pairings of a service, with their employees. -/
def links (api : Api) (serviceId : String) (d : Db) : List (EmployeeService × Employee) :=
  ((d.employeeServices.filter fun link =>
    decide (link.organizationId = api.organizationId ∧ link.serviceId = serviceId)).filterMap fun link =>
      (bookableEmployee d link).map fun employee => (link, employee)).insertionSort shownBefore

/-- `price: { amountCents: link.priceOverrideCents ?? service.priceCents, currency: service.currency }` -/
def quote (service : Service) (link : EmployeeService) : Money where
  amountCents := link.priceOverrideCents.getD service.priceCents
  currency := service.currency

def toItem (service : Service) (entry : EmployeeService × Employee) : ServiceEmployee where
  id := entry.2.id
  displayName := entry.2.displayName
  displayOrder := entry.2.displayOrder
  price := quote service entry.1

/-- `GET /public/services/:serviceId/employees`. The service is looked up as for a reservation. -/
def serviceEmployees (api : Api) (serviceId : String) : Tx (List ServiceEmployee) := do
  let service ← loadService api serviceId
  let links ← read (links api serviceId)
  return links.map (toItem service)

end Model

/-- `@@unique([employeeId, serviceId])` -/
def PairingsUnique (d : Db) : Prop :=
  (d.employeeServices.map fun link => (link.employeeId, link.serviceId)).Nodup

section Listing

variable {api : Api} {serviceId : String} {d : Db} {service : Service} {link : EmployeeService}
  {employee : Employee}

theorem runAlone_serviceEmployees (a : Alone store) : (serviceEmployees api serviceId).runAlone a =
    ((offeredService api serviceId a.view).elim (.error serviceNotFound) fun service =>
      .ok ((links api serviceId a.view).map (toItem service)), a) := by
  unfold serviceEmployees
  rw [runAlone_bind, runAlone_loadService]
  cases offeredService api serviceId a.view with
  | none => rfl
  | some service => rfl

theorem serviceEmployees_eq_ok {items : List ServiceEmployee} {a a' : Alone store}
    (h : (serviceEmployees api serviceId).runAlone a = (.ok items, a')) :
    ∃ service, offeredService api serviceId a.view = some service ∧
      items = (links api serviceId a.view).map (toItem service) := by
  rw [runAlone_serviceEmployees] at h
  cases hservice : offeredService api serviceId a.view with
  | none =>
    rw [hservice] at h
    cases h
  | some service =>
    rw [hservice] at h
    cases h
    exact ⟨service, rfl, rfl⟩

theorem bookableEmployee_eq_some : bookableEmployee d link = some employee ↔
    Table.find link.employeeId d.employees = some employee ∧ employee.isBookableOnline = true ∧
      employee.archivedAt = none := by
  rw [bookableEmployee, Option.filter_eq_some_iff, decide_eq_true_eq]

theorem mem_links : (link, employee) ∈ links api serviceId d ↔
    link ∈ d.employeeServices ∧ (link.organizationId = api.organizationId ∧ link.serviceId = serviceId) ∧
      bookableEmployee d link = some employee := by
  simp only [links, List.mem_insertionSort, List.mem_filterMap, List.mem_filter, decide_eq_true_eq,
    Option.map_eq_some_iff, Prod.mk.injEq]
  constructor
  · rintro ⟨link, ⟨hlink, hkeys⟩, employee, hemployee, rfl, rfl⟩
    exact ⟨hlink, hkeys, hemployee⟩
  · rintro ⟨hlink, hkeys, hemployee⟩
    exact ⟨link, ⟨hlink, hkeys⟩, employee, hemployee, rfl, rfl⟩

/-- An entry is shown under the id that its pairing names. -/
theorem id_of_mem_links (h : (link, employee) ∈ links api serviceId d) : employee.id = link.employeeId :=
  Table.key_of_find (bookableEmployee_eq_some.mp (mem_links.mp h).2.2).1

/-- Who is shown is who slots are searched for. -/
theorem mem_ids {id : String} :
    id ∈ ((links api serviceId d).map (toItem service)).map ServiceEmployee.id ↔
      id ∈ performers api serviceId none d := by
  rw [mem_performers, List.map_map, List.mem_map]
  constructor
  · rintro ⟨⟨link, employee⟩, hmem, rfl⟩
    obtain ⟨hlink, ⟨ho, hs⟩, hemployee⟩ := mem_links.mp hmem
    obtain ⟨hfind, honline⟩ := bookableEmployee_eq_some.mp hemployee
    have hid : link.employeeId = employee.id := (id_of_mem_links hmem).symm
    rw [hid] at hfind
    exact ⟨link, hlink, ⟨ho, hs, hid⟩, by simp, employee, hfind, honline⟩
  · rintro ⟨link, hlink, ⟨ho, hs, rfl⟩, -, employee, hfind, honline⟩
    have hemployee : bookableEmployee d link = some employee := bookableEmployee_eq_some.mpr ⟨hfind, honline⟩
    exact ⟨(link, employee), mem_links.mpr ⟨hlink, ⟨ho, hs⟩, hemployee⟩, Table.key_of_find hfind⟩

theorem pairwise_links (h : PairingsUnique d) : (links api serviceId d).Pairwise fun a b => a.2.id ≠ b.2.id := by
  have hlinks : (d.employeeServices.filter fun link =>
      decide (link.organizationId = api.organizationId ∧ link.serviceId = serviceId)).Pairwise
        fun a b => a.employeeId ≠ b.employeeId := by
    refine ((List.pairwise_map.mp h).filter _).imp_of_mem fun {x y} hx hy hne he => hne ?_
    have hx := (of_decide_eq_true (List.mem_filter.mp hx).2).2
    have hy := (of_decide_eq_true (List.mem_filter.mp hy).2).2
    rw [he, hx, hy]
  refine (List.perm_insertionSort _ _).symm.pairwise (List.pairwise_filterMap.mpr ?_) fun hne => hne.symm
  refine hlinks.imp fun {x y} hne entry hentry entry' hentry' => ?_
  obtain ⟨employee, hemployee, rfl⟩ := Option.map_eq_some_iff.mp hentry
  obtain ⟨employee', hemployee', rfl⟩ := Option.map_eq_some_iff.mp hentry'
  have hid : employee.id = x.employeeId := Table.key_of_find (bookableEmployee_eq_some.mp hemployee).1
  have hid' : employee'.id = y.employeeId := Table.key_of_find (bookableEmployee_eq_some.mp hemployee').1
  rw [hid, hid']
  exact hne

/-- Nobody is shown twice. -/
theorem nodup_ids (h : PairingsUnique d) :
    (((links api serviceId d).map (toItem service)).map ServiceEmployee.id).Nodup := by
  rw [List.map_map]
  exact List.pairwise_map.mpr (pairwise_links h)

/-- An entry is known by its id. -/
theorem eq_of_mem_links (h : PairingsUnique d) {entry entry' : EmployeeService × Employee}
    (hentry : entry ∈ links api serviceId d) (hentry' : entry' ∈ links api serviceId d)
    (hid : entry.2.id = entry'.2.id) : entry = entry' :=
  List.inj_on_of_nodup_map (List.pairwise_map.mpr (pairwise_links h)) hentry hentry' hid

end Listing

section Charging

variable {api : Api} {input : ReserveInput} {d : Db} {service : Service} {link : EmployeeService}
  {employee : Employee}

theorem quote_of_resolve {price : Money} (h : resolveEffectivePrice service link = .ok price) :
    price = quote service link := by
  unfold resolveEffectivePrice at h
  dsimp only at h
  split at h
  · cases h
  · exact Money.fromCents_eq_ok h

/-- The service of an offer is the one with its id. -/
theorem find_of_offered {serviceId : String} (h : offeredService api serviceId d = some service) :
    Table.find serviceId d.services = some service :=
  (Option.filter_eq_some_iff.mp (Option.filter_eq_some_iff.mp h).1).1

/-- The pairing that a customer's reservation finds is shown. -/
theorem mem_links_of_findAssignment (hactor : input.actor = .CUSTOMER)
    (h : findAssignment api input d = some (link, employee, service)) :
    (link, employee) ∈ links api input.serviceId d ∧ employee.id = input.employeeId ∧
      Table.find input.serviceId d.services = some service := by
  obtain ⟨found, hlink, h⟩ := Option.bind_eq_some_iff.mp h
  obtain ⟨e, hemployee, h⟩ := Option.bind_eq_some_iff.mp h
  obtain ⟨s, hservice, h⟩ := Option.bind_eq_some_iff.mp h
  cases h
  have hkeys := List.find?_some hlink
  rw [decide_eq_true_eq] at hkeys
  obtain ⟨horganization, hserviceId, hemployeeId⟩ := hkeys
  obtain ⟨hfind, hbookable⟩ := Option.filter_eq_some_iff.mp hemployee
  obtain ⟨harchived, honline⟩ := of_decide_eq_true hbookable
  have hshown : (link, employee) ∈ links api input.serviceId d :=
    mem_links.mpr ⟨List.mem_of_find?_eq_some hlink, ⟨horganization, hserviceId⟩,
      bookableEmployee_eq_some.mpr ⟨hfind, honline hactor, harchived⟩⟩
  refine ⟨hshown, (id_of_mem_links hshown).trans hemployeeId, ?_⟩
  rw [← hserviceId]
  exact (Option.filter_eq_some_iff.mp hservice).1

/-- A customer who names somebody that is shown books with the pairing that is shown. -/
theorem findAssignment_of_mem_links (hpairs : PairingsUnique d) (hactor : input.actor = .CUSTOMER)
    (hservice : offeredService api input.serviceId d = some service)
    (h : (link, employee) ∈ links api input.serviceId d) (hid : input.employeeId = employee.id) :
    findAssignment api input d = some (link, employee, service) := by
  have hperformer : input.employeeId ∈ performers api input.serviceId none d := by
    rw [hid, ← @mem_ids api input.serviceId d service, List.map_map]
    exact List.mem_map_of_mem h
  obtain ⟨link', -, employee', hfound⟩ := findAssignment_isSome hservice hperformer
  obtain ⟨hshown, hid', -⟩ := mem_links_of_findAssignment hactor hfound
  have heq : (link', employee') = (link, employee) := eq_of_mem_links hpairs hshown h (hid'.trans hid)
  cases heq
  exact hfound

theorem currency_of_insertOnce {expiresAt : Option Int} {r : ReserveResult} {s s' : Alone store}
    (h : (insertOnce api input expiresAt).runAlone s = (.ok r, s')) : r.booking.currency = r.price.currency := by
  unfold insertOnce withCalendarLock at h
  rw [runAlone_bind_ok (runAlone_lockCalendars _)] at h
  obtain ⟨snapshot, s₁, -, h⟩ := runAlone_bind_eq_ok.mp h
  obtain ⟨_, s₂, -, h⟩ := runAlone_bind_eq_ok.mp h
  obtain ⟨assignment, s₃, -, h⟩ := runAlone_bind_eq_ok.mp h
  obtain ⟨keyId, s₄, -, h⟩ := runAlone_bind_eq_ok.mp h
  obtain ⟨instant, s₅, -, h⟩ := runAlone_bind_eq_ok.mp h
  obtain ⟨ids, s₆, -, h⟩ := runAlone_bind_eq_ok.mp h
  obtain ⟨_, s₇, -, h⟩ := runAlone_bind_eq_ok.mp h
  obtain ⟨_, s₈, -, h⟩ := runAlone_bind_eq_ok.mp h
  obtain ⟨_, s₉, -, h⟩ := runAlone_bind_eq_ok.mp h
  obtain ⟨_, s₁₀, -, h⟩ := runAlone_bind_eq_ok.mp h
  obtain ⟨_, s₁₁, -, h⟩ := runAlone_bind_eq_ok.mp h
  obtain ⟨token, s₁₂, -, h⟩ := runAlone_bind_eq_ok.mp h
  cases h
  unfold ReserveInput.toBooking
  cases input.actor with
  | CUSTOMER => rfl
  | OFFICE officeUserId => rfl

/-- What a reservation finds for somebody that was shown, when the catalogue is still the same. -/
theorem loadEffectiveAssignment_of_mem_links (hlegal : Legal d) (hfit : PricesFit d) (hpairs : PairingsUnique d)
    (hactor : input.actor = .CUSTOMER) (hservice : offeredService api input.serviceId d = some service)
    (h : (link, employee) ∈ links api input.serviceId d) (hid : input.employeeId = employee.id)
    {a : Alone store} (hsame : a.view.catalogue = d.catalogue) : (loadEffectiveAssignment api input).runAlone a =
      (.ok {
        employeeName := employee.displayName, serviceName := service.name, price := quote service link }, a) := by
  have hfound : findAssignment api input a.view = some (link, employee, service) := by
    rw [findAssignment_congr hsame]
    exact findAssignment_of_mem_links hpairs hactor hservice h hid
  have hoffered : service ∈ d.services := Table.mem_of_find (find_of_offered hservice)
  obtain ⟨price, hprice⟩ := resolveEffectivePrice_isOk hlegal hfit hoffered (mem_links.mp h).1
  obtain rfl := quote_of_resolve hprice
  unfold loadEffectiveAssignment
  rw [runAlone_bind_ok (runAlone_read ..), hfound]
  dsimp only
  rw [hprice]
  rfl

/-- What a reservation charges was shown, when the catalogue is still the same. -/
theorem charged_of_reserveWith (hactor : input.actor = .CUSTOMER)
    (hservice : offeredService api input.serviceId d = some service) {employeeId : Option String}
    {r : ReserveResult} {s s' : Alone store} (h : (reserveWith api employeeId input).runAlone s = (.ok r, s'))
    (hsame : s'.db.catalogue = d.catalogue) : ∃ entry ∈ links api input.serviceId d,
      entry.2.id = r.booking.employeeId ∧
        r.booking.priceCentsSnapshot = (quote service entry.1).amountCents ∧
        r.booking.currency = (quote service entry.1).currency := by
  obtain ⟨hmade, -⟩ := reserved_of_reserveWith hactor h
  obtain ⟨link, employee, found, hfound, hprice⟩ := hmade.priced
  rw [findAssignment_congr hsame] at hfound
  obtain ⟨hmem, hid, hfind⟩ :=
    @mem_links_of_findAssignment api { input with employeeId := r.booking.employeeId } _ _ _ _ hactor hfound
  obtain rfl : service = found := Option.some.inj ((find_of_offered hservice).symm.trans hfind)
  have hquote := quote_of_resolve hprice
  obtain ⟨_, _, _, _, hinsert, -⟩ := attempt_of_reserveWith h
  refine ⟨(link, employee), hmem, hid, ?_, ?_⟩
  · rw [hmade.price, hquote]
  · rw [currency_of_insertOnce hinsert, hquote]

end Charging

/-- The list of a service, read in any state: it shows everybody who slots are searched for, once. While the
catalogue stays as it is, whatever else happens: the transaction of a customer's reservation that names
somebody on the list finds the name and the price that are shown; and a reservation that succeeds, with
an employee named or chosen, is with somebody on the list and at the price that is shown. -/
theorem quotes_charged {api : Api} {serviceId : String} {items : List ServiceEmployee} {b b' : Alone store}
    (hlegal : Legal b.view) (hfit : PricesFit b.view) (hpairs : PairingsUnique b.view)
    (hquoted : (serviceEmployees api serviceId).runAlone b = (.ok items, b')) :
    (items.map ServiceEmployee.id).Nodup ∧
    (∀ id, id ∈ items.map ServiceEmployee.id ↔ id ∈ performers api serviceId none b.view) ∧
    (∀ item ∈ items, ∀ (input : ReserveInput) (a : Alone store), input.actor = .CUSTOMER →
      input.serviceId = serviceId → input.employeeId = item.id → a.view.catalogue = b.view.catalogue →
      ∃ serviceName, (loadEffectiveAssignment api input).runAlone a =
        (.ok { employeeName := item.displayName, serviceName, price := item.price }, a)) ∧
    ∀ (input : ReserveInput) (employeeId : Option String) (r : ReserveResult) (s s' : Alone store),
      input.actor = .CUSTOMER → input.serviceId = serviceId →
      (reserveWith api employeeId input).runAlone s = (.ok r, s') → s'.db.catalogue = b.view.catalogue →
      ∃ item ∈ items, item.id = r.booking.employeeId ∧ r.booking.priceCentsSnapshot = item.price.amountCents ∧
        r.booking.currency = item.price.currency := by
  obtain ⟨service, hservice, rfl⟩ := serviceEmployees_eq_ok hquoted
  refine ⟨nodup_ids hpairs, fun id => mem_ids, ?_, ?_⟩
  · rintro item hitem input a hactor rfl hid hsame
    obtain ⟨⟨link, employee⟩, hmem, rfl⟩ := List.mem_map.mp hitem
    exact ⟨service.name, loadEffectiveAssignment_of_mem_links hlegal hfit hpairs hactor hservice hmem hid hsame⟩
  · rintro input employeeId r s s' hactor rfl hreserved hsame
    obtain ⟨entry, hmem, hcharged⟩ := charged_of_reserveWith hactor hservice hreserved hsame
    exact ⟨toItem service entry, List.mem_map_of_mem hmem, hcharged⟩

/-- Eva, at the price of Thursday. -/
def ServiceEmployee.eva : ServiceEmployee where
  id := "e"
  displayName := "Eva"
  displayOrder := 0
  price := ⟨100, "EUR"⟩

/-- On Thursday Eva alone is shown, and whoever names nobody pays her price. -/
theorem quotes_charged_thursday : ∃ r s', (reserveWith .sample none .eleven).runAlone
    (Alone.numbered (.thursdayAt 100)) = (.ok r, s') ∧ r.booking.employeeId = "e" ∧
      r.booking.priceCentsSnapshot = 100 := by
  have hquoted : (serviceEmployees .sample "s").runAlone (Alone.numbered (.thursdayAt 100)) =
      (.ok [.eva], Alone.numbered (.thursdayAt 100)) := rfl
  have hpairs : PairingsUnique (Alone.numbered (.thursdayAt 100)).view := by
    unfold PairingsUnique
    decide
  obtain ⟨-, -, -, hcharged⟩ := quotes_charged (by decide) ⟨by decide, by decide⟩ hpairs hquoted
  have hreserved : ∃ r s', (reserveWith .sample none .eleven).runAlone
      (Alone.numbered (.thursdayAt 100)) = (.ok r, s') ∧
        s'.db.catalogue = (Alone.numbered (.thursdayAt 100)).view.catalogue := ⟨_, _, rfl, rfl⟩
  obtain ⟨r, s', hrun, hsame⟩ := hreserved
  obtain ⟨item, hitem, hid, hprice, -⟩ := hcharged .eleven none r _ s' rfl rfl hrun hsame
  obtain rfl := List.mem_singleton.mp hitem
  exact ⟨r, s', hrun, hid.symm, hprice⟩

end BookingApp.PublicCatalog

import ReportSql.Catalog.Registry

/-!
# The telematics catalog

The catalog that is used when no other is given. Entities stand in listing order, and the
relationships of each in the order in which joins prefer them. Coordinates are stored as degrees
times ten million and speeds as kilometres an hour times a hundred.
-/

namespace ReportSql.Catalog.Telematics

/-- A field with nothing but a name and a type. -/
def field (id displayName : String) (type : FieldType) : Field :=
  ⟨id, none, displayName, none, type, false, false, false, false, none, none, none, [], none⟩

/-- The groups of the listing. -/
def categories : List Category := [
  ⟨"core", "Core", "Primary tracked units and personnel"⟩,
  ⟨"grouping", "Grouping", "Organization and categorization"⟩,
  ⟨"geo", "Geo", "Geographic boundaries and locations"⟩,
  ⟨"telemetry", "Telemetry", "Tracking hardware, sensors and time-series data"⟩,
  ⟨"accounts", "Accounts", "Platform user accounts"⟩]

/-- Tracked units linking devices to organizational structure. -/
def objects : Entity where
  id := "objects"
  displayName := "Object"
  displayNamePlural := "Objects"
  description := "Tracked units linking devices to organizational structure"
  icon := "MapPin"
  color := "#2186eb"
  category := some "core"
  schema := "raw_business_data"
  table := "objects"
  fields := [
    { field "object_id" "Object ID" .number with
      filterable := true, sortable := true, primaryKey := true,
      aggregations := [.count, .countDistinct] },
    { field "object_label" "Object Name" .string with filterable := true, sortable := true },
    { field "device_id" "Device ID" .number with
      filterable := true, foreignKey := true, foreignEntity := some "devices",
      foreignField := some "device_id" },
    { field "client_id" "Client ID" .number with
      filterable := true, foreignKey := true, foreignEntity := some "users",
      foreignField := some "user_id" },
    { field "group_id" "Group ID" .number with
      filterable := true, foreignKey := true, foreignEntity := some "groups",
      foreignField := some "group_id" },
    { field "model" "Device Model" .string with filterable := true },
    { field "create_datetime" "Created At" .datetime with filterable := true, sortable := true },
    { field "is_deleted" "Is Deleted" .boolean with filterable := true },
    { field "is_clone" "Is Clone" .boolean with filterable := true },
    { field "record_added_at" "Record Added" .datetime with filterable := true, sortable := true }]
  relationships := [
    ⟨"devices", .manyToOne, "device_id", "device_id", .left⟩,
    ⟨"groups", .manyToOne, "group_id", "group_id", .left⟩,
    ⟨"vehicles", .oneToOne, "object_id", "object_id", .left⟩,
    ⟨"employees", .oneToMany, "object_id", "object_id", .left⟩,
    ⟨"users", .manyToOne, "client_id", "user_id", .left⟩]
  defaultFields := ["object_id", "object_label", "model", "create_datetime"]
  searchableFields := ["object_label", "model"]
  timestampField := some "create_datetime"

/-- Physical vehicles with specifications and documentation. -/
def vehicles : Entity where
  id := "vehicles"
  displayName := "Vehicle"
  displayNamePlural := "Vehicles"
  description := "Physical vehicles with specifications and documentation"
  icon := "Car"
  color := "#8b5cf6"
  category := some "core"
  schema := "raw_business_data"
  table := "vehicles"
  fields := [
    { field "vehicle_id" "Vehicle ID" .number with
      filterable := true, sortable := true, primaryKey := true,
      aggregations := [.count, .countDistinct] },
    { field "vehicle_label" "Vehicle Name" .string with filterable := true, sortable := true },
    { field "registration_number" "License Plate" .string with
      filterable := true, sortable := true },
    { field "vin" "VIN" .string with filterable := true },
    { field "model" "Model" .string with filterable := true, sortable := true },
    { field "manufacture_year" "Year" .number with
      filterable := true, sortable := true, aggregations := [.min, .max, .avg] },
    { field "vehicle_type" "Type" .number with filterable := true },
    { field "fuel_type" "Fuel Type" .number with filterable := true },
    { field "fuel_tank_volume" "Tank Volume (L)" .number with aggregations := [.avg, .sum] },
    { field "standard_fuel_consumption" "Fuel Consumption (L/100km)" .number with
      aggregations := [.avg] },
    { field "max_speed" "Max Speed (km/h)" .number with aggregations := [.avg, .max] },
    { field "object_id" "Object ID" .number with
      foreignKey := true, foreignEntity := some "objects", foreignField := some "object_id" },
    { field "user_id" "User ID" .number with
      foreignKey := true, foreignEntity := some "users", foreignField := some "user_id" },
    field "garage_id" "Garage ID" .number,
    { field "record_added_at" "Record Added" .datetime with filterable := true, sortable := true }]
  relationships := [
    ⟨"objects", .oneToOne, "object_id", "object_id", .left⟩,
    ⟨"users", .manyToOne, "user_id", "user_id", .left⟩]
  defaultFields := ["vehicle_id", "vehicle_label", "registration_number", "model", "vehicle_type"]
  searchableFields := ["vehicle_label", "registration_number", "vin", "model"]
  timestampField := some "record_added_at"

/-- Personnel records including drivers with license information. -/
def employees : Entity where
  id := "employees"
  displayName := "Employee"
  displayNamePlural := "Employees / Drivers"
  description := "Personnel records including drivers with license information"
  icon := "User"
  color := "#22c55e"
  category := some "core"
  schema := "raw_business_data"
  table := "employees"
  fields := [
    { field "employee_id" "Employee ID" .number with
      filterable := true, sortable := true, primaryKey := true,
      aggregations := [.count, .countDistinct] },
    { field "first_name" "First Name" .string with filterable := true, sortable := true },
    { field "last_name" "Last Name" .string with filterable := true, sortable := true },
    { field "middle_name" "Middle Name" .string with filterable := true },
    { field "email" "Email" .string with filterable := true },
    { field "phone_number" "Phone" .string with filterable := true },
    { field "personnel_number" "Personnel Number" .string with filterable := true },
    { field "department_id" "Department ID" .number with
      foreignKey := true, foreignEntity := some "departments",
      foreignField := some "department_id" },
    { field "object_id" "Assigned Object ID" .number with
      foreignKey := true, foreignEntity := some "objects", foreignField := some "object_id" },
    { field "hardware_key" "Hardware Key" .string with filterable := true },
    { field "driver_license_number" "License Number" .string with filterable := true },
    { field "is_deleted" "Is Deleted" .boolean with filterable := true },
    { field "record_added_at" "Record Added" .datetime with filterable := true, sortable := true }]
  relationships := [
    ⟨"departments", .manyToOne, "department_id", "department_id", .left⟩,
    ⟨"objects", .manyToOne, "object_id", "object_id", .left⟩]
  defaultFields := ["employee_id", "first_name", "last_name", "phone_number", "department_id"]
  searchableFields := ["first_name", "last_name", "email", "phone_number"]
  timestampField := some "record_added_at"

/-- Organizational units with geographic location. -/
def departments : Entity where
  id := "departments"
  displayName := "Department"
  displayNamePlural := "Departments"
  description := "Organizational units with geographic location"
  icon := "Building"
  color := "#f97316"
  category := some "grouping"
  schema := "raw_business_data"
  table := "departments"
  fields := [
    { field "department_id" "Department ID" .number with
      filterable := true, sortable := true, primaryKey := true,
      aggregations := [.count, .countDistinct] },
    { field "department_label" "Department Name" .string with
      filterable := true, sortable := true },
    { field "user_id" "User ID" .number with
      foreignKey := true, foreignEntity := some "users", foreignField := some "user_id" },
    { field "address" "Address" .string with filterable := true },
    { field "latitude" "Latitude" .number with encoding := some .geocoordinate },
    { field "longitude" "Longitude" .number with encoding := some .geocoordinate },
    { field "record_added_at" "Record Added" .datetime with filterable := true, sortable := true }]
  relationships := [
    ⟨"employees", .oneToMany, "department_id", "department_id", .left⟩]
  defaultFields := ["department_id", "department_label", "address"]
  searchableFields := ["department_label", "address"]
  timestampField := some "record_added_at"

/-- Organizational grouping for trackers. -/
def groups : Entity where
  id := "groups"
  displayName := "Group"
  displayNamePlural := "Groups"
  description := "Organizational grouping for trackers"
  icon := "Folder"
  color := "#ec4899"
  category := some "grouping"
  schema := "raw_business_data"
  table := "groups"
  fields := [
    { field "group_id" "Group ID" .number with
      filterable := true, sortable := true, primaryKey := true,
      aggregations := [.count, .countDistinct] },
    { field "group_label" "Group Name" .string with filterable := true, sortable := true },
    field "group_color" "Color" .string,
    { field "client_id" "Client ID" .number with
      foreignKey := true, foreignEntity := some "users", foreignField := some "user_id" },
    { field "record_added_at" "Record Added" .datetime with filterable := true, sortable := true }]
  relationships := [
    ⟨"objects", .oneToMany, "group_id", "group_id", .left⟩]
  defaultFields := ["group_id", "group_label", "group_color"]
  searchableFields := ["group_label"]
  timestampField := some "record_added_at"

/-- Labels for categorizing and filtering objects. -/
def tags : Entity where
  id := "tags"
  displayName := "Tag"
  displayNamePlural := "Tags"
  description := "Labels for categorizing and filtering objects"
  icon := "Tag"
  color := "#06b6d4"
  category := some "grouping"
  schema := "raw_business_data"
  table := "tags"
  fields := [
    { field "tag_id" "Tag ID" .number with
      filterable := true, sortable := true, primaryKey := true,
      aggregations := [.count, .countDistinct] },
    { field "tag_label" "Tag Name" .string with filterable := true, sortable := true },
    field "color" "Color" .string,
    { field "user_id" "User ID" .number with
      filterable := true, foreignKey := true, foreignEntity := some "users",
      foreignField := some "user_id" },
    { field "record_added_at" "Record Added" .datetime with filterable := true, sortable := true }]
  relationships := []
  defaultFields := ["tag_id", "tag_label", "color"]
  searchableFields := ["tag_label"]
  timestampField := some "record_added_at"

/-- Geographic boundaries for monitoring entry/exit events. -/
def geofences : Entity where
  id := "geofences"
  displayName := "Geofence"
  displayNamePlural := "Geofences"
  description := "Geographic boundaries for monitoring entry/exit events"
  icon := "MapPinned"
  color := "#ef4444"
  category := some "geo"
  schema := "raw_business_data"
  table := "zones"
  fields := [
    { field "zone_id" "Zone ID" .number with
      filterable := true, sortable := true, primaryKey := true,
      aggregations := [.count, .countDistinct] },
    { field "zone_label" "Zone Name" .string with filterable := true, sortable := true },
    { field "zone_type" "Zone Type" .string with filterable := true },
    { field "address" "Address" .string with filterable := true },
    { field "latitude" "Center Latitude" .number with encoding := some .geocoordinate },
    { field "longitude" "Center Longitude" .number with encoding := some .geocoordinate },
    { field "radius" "Radius (m)" .number with aggregations := [.avg, .sum] },
    field "color" "Color" .string,
    { field "record_added_at" "Record Added" .datetime with filterable := true, sortable := true }]
  relationships := []
  defaultFields := ["zone_id", "zone_label", "zone_type", "address", "radius"]
  searchableFields := ["zone_label", "address"]
  timestampField := some "record_added_at"

/-- Named locations and places of interest. -/
def pois : Entity where
  id := "pois"
  displayName := "Place"
  displayNamePlural := "Places / POIs"
  description := "Named locations and places of interest"
  icon := "MapPin"
  color := "#f97316"
  category := some "geo"
  schema := "raw_business_data"
  table := "places"
  fields := [
    { field "place_id" "Place ID" .number with
      filterable := true, sortable := true, primaryKey := true,
      aggregations := [.count, .countDistinct] },
    { field "place_label" "Place Name" .string with filterable := true, sortable := true },
    { field "address" "Address" .string with filterable := true },
    { field "latitude" "Latitude" .number with encoding := some .geocoordinate },
    { field "longitude" "Longitude" .number with encoding := some .geocoordinate },
    field "radius" "Radius (m)" .number,
    field "description" "Description" .string,
    { field "external_id" "External ID" .string with filterable := true },
    { field "user_id" "User ID" .number with
      filterable := true, foreignKey := true, foreignEntity := some "users",
      foreignField := some "user_id" },
    { field "record_added_at" "Record Added" .datetime with filterable := true, sortable := true }]
  relationships := []
  defaultFields := ["place_id", "place_label", "address", "radius"]
  searchableFields := ["place_label", "address"]
  timestampField := some "record_added_at"

/-- GPS/tracking hardware with connectivity information. -/
def devices : Entity where
  id := "devices"
  displayName := "Device"
  displayNamePlural := "Devices"
  description := "GPS/tracking hardware with connectivity information"
  icon := "Smartphone"
  color := "#06b6d4"
  category := some "telemetry"
  schema := "raw_business_data"
  table := "devices"
  fields := [
    { field "device_id" "Device ID" .number with
      filterable := true, sortable := true, primaryKey := true,
      aggregations := [.count, .countDistinct] },
    { field "device_imei" "IMEI" .string with filterable := true, sortable := true },
    { field "phone" "SIM Phone" .string with filterable := true },
    { field "network_label" "Network" .string with filterable := true },
    { field "signal_level" "Signal Level" .number with aggregations := [.avg, .min, .max] },
    { field "has_roaming" "Roaming" .boolean with filterable := true },
    { field "is_sim_blocked" "SIM Blocked" .boolean with filterable := true },
    { field "created_at" "Created At" .datetime with filterable := true, sortable := true },
    { field "record_added_at" "Record Added" .datetime with filterable := true, sortable := true }]
  relationships := [
    ⟨"objects", .oneToMany, "device_id", "device_id", .left⟩,
    ⟨"sensor_description", .oneToMany, "device_id", "device_id", .left⟩]
  defaultFields := ["device_id", "device_imei", "phone", "signal_level", "network_label"]
  searchableFields := ["device_imei", "phone", "network_label"]
  timestampField := some "created_at"

/-- Sensor configurations with calibration and units. -/
def sensorDescription : Entity where
  id := "sensor_description"
  displayName := "Sensor"
  displayNamePlural := "Sensors"
  description := "Sensor configurations with calibration and units"
  icon := "Gauge"
  color := "#eab308"
  category := some "telemetry"
  schema := "raw_business_data"
  table := "sensor_description"
  fields := [
    { field "sensor_id" "Sensor ID" .number with
      filterable := true, sortable := true, primaryKey := true,
      aggregations := [.count, .countDistinct] },
    { field "device_id" "Device ID" .number with
      foreignKey := true, foreignEntity := some "devices", foreignField := some "device_id" },
    { field "sensor_label" "Sensor Name" .string with filterable := true, sortable := true },
    { field "sensor_type" "Sensor Type" .string with filterable := true, sortable := true },
    { field "input_label" "Input Name" .string with filterable := true },
    { field "sensor_units" "Units" .string with filterable := true },
    field "multiplier" "Multiplier" .number,
    field "divider" "Divider" .number,
    { field "record_added_at" "Record Added" .datetime with filterable := true, sortable := true }]
  relationships := [
    ⟨"devices", .manyToOne, "device_id", "device_id", .inner⟩]
  defaultFields := ["sensor_id", "sensor_label", "sensor_type", "sensor_units"]
  searchableFields := ["sensor_label", "sensor_type", "input_label"]
  timestampField := some "record_added_at"

/-- Platform accounts owning objects and assets. -/
def users : Entity where
  id := "users"
  displayName := "User"
  displayNamePlural := "Users"
  description := "Platform accounts owning objects and assets"
  icon := "UserCog"
  color := "#64748b"
  category := some "accounts"
  schema := "raw_business_data"
  table := "users"
  fields := [
    { field "user_id" "User ID" .number with
      filterable := true, sortable := true, primaryKey := true,
      aggregations := [.count, .countDistinct] },
    { field "login" "Login" .string with filterable := true, sortable := true },
    { field "title" "Account Name" .string with filterable := true, sortable := true },
    { field "master_id" "Master User ID" .number with
      filterable := true, foreignKey := true, foreignEntity := some "users",
      foreignField := some "user_id" },
    { field "record_added_at" "Record Added" .datetime with filterable := true, sortable := true }]
  relationships := [
    ⟨"users", .manyToOne, "master_id", "user_id", .left⟩]
  defaultFields := ["user_id", "login", "title"]
  searchableFields := ["login", "title"]
  timestampField := some "record_added_at"

/-- GPS location and motion data from devices. -/
def trackingDataCore : Entity where
  id := "tracking_data_core"
  displayName := "Location"
  displayNamePlural := "Location Data"
  description := "GPS location and motion data from devices"
  icon := "Navigation"
  color := "#14b8a6"
  category := some "telemetry"
  schema := "raw_telematics_data"
  table := "tracking_data_core"
  fields := [
    { field "device_id" "Device ID" .number with
      filterable := true, foreignKey := true, foreignEntity := some "devices",
      foreignField := some "device_id", aggregations := [.count, .countDistinct] },
    { field "device_time" "Device Time" .datetime with filterable := true, sortable := true },
    { field "platform_time" "Platform Time" .datetime with filterable := true, sortable := true },
    { field "latitude" "Latitude" .number with
      description := some "Degrees, stored as integer * 10^7", encoding := some .geocoordinate },
    { field "longitude" "Longitude" .number with
      description := some "Degrees, stored as integer * 10^7", encoding := some .geocoordinate },
    { field "speed" "Speed" .number with
      description := some "km/h, stored as integer * 100", aggregations := [.avg, .max, .min],
      encoding := some .speed },
    { field "altitude" "Altitude (m)" .number with aggregations := [.avg, .max, .min] },
    { field "satellites" "Satellites" .number with aggregations := [.avg] },
    field "event_id" "Event ID" .number,
    { field "record_added_at" "Record Added" .datetime with filterable := true, sortable := true }]
  relationships := [
    ⟨"devices", .manyToOne, "device_id", "device_id", .inner⟩]
  defaultFields := ["device_id", "device_time", "latitude", "longitude", "speed"]
  searchableFields := []
  timestampField := some "device_time"

/-- Time-series sensor input values from devices. -/
def inputs : Entity where
  id := "inputs"
  displayName := "Input"
  displayNamePlural := "Inputs"
  description := "Time-series sensor input values from devices"
  icon := "ArrowDownToLine"
  color := "#a855f7"
  category := some "telemetry"
  schema := "raw_telematics_data"
  table := "inputs"
  fields := [
    { field "device_id" "Device ID" .number with
      filterable := true, foreignKey := true, foreignEntity := some "devices",
      foreignField := some "device_id", aggregations := [.count, .countDistinct] },
    { field "device_time" "Device Time" .datetime with filterable := true, sortable := true },
    { field "sensor_name" "Sensor Name" .string with filterable := true, sortable := true },
    field "value" "Value" .string,
    field "event_id" "Event ID" .number,
    { field "record_added_at" "Record Added" .datetime with filterable := true, sortable := true }]
  relationships := [
    ⟨"devices", .manyToOne, "device_id", "device_id", .inner⟩]
  defaultFields := ["device_id", "device_time", "sensor_name", "value"]
  searchableFields := ["sensor_name"]
  timestampField := some "device_time"

/-- Device states and status information. -/
def states : Entity where
  id := "states"
  displayName := "State"
  displayNamePlural := "States"
  description := "Device states and status information"
  icon := "ArrowUpFromLine"
  color := "#22c55e"
  category := some "telemetry"
  schema := "raw_telematics_data"
  table := "states"
  fields := [
    { field "device_id" "Device ID" .number with
      filterable := true, foreignKey := true, foreignEntity := some "devices",
      foreignField := some "device_id", aggregations := [.count, .countDistinct] },
    { field "device_time" "Device Time" .datetime with filterable := true, sortable := true },
    { field "state_name" "State Name" .string with filterable := true, sortable := true },
    field "value" "Value" .string,
    { field "status" "Status" .string with filterable := true },
    field "event_id" "Event ID" .number,
    { field "record_added_at" "Record Added" .datetime with filterable := true, sortable := true }]
  relationships := [
    ⟨"devices", .manyToOne, "device_id", "device_id", .inner⟩]
  defaultFields := ["device_id", "device_time", "state_name", "value", "status"]
  searchableFields := ["state_name"]
  timestampField := some "device_time"

/-- The entities in listing order. -/
def entities : List Entity :=
  [objects, vehicles, employees, departments, groups, tags, geofences, pois, devices,
   sensorDescription, users, trackingDataCore, inputs, states]

end ReportSql.Catalog.Telematics

namespace ReportSql.Catalog.Registry

/-- The telematics catalog has no defects. -/
def telematics : Registry :=
  ⟨Telematics.entities, Telematics.categories, by decide +kernel⟩

end ReportSql.Catalog.Registry

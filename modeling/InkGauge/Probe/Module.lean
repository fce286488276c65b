import InkGauge.Number.Decimal
import InkGauge.Probe.Emitter
import InkGauge.Probe.Thresholds

/-!
The module that is put behind an instrumented contract.

It holds the tracker that the probes call: it measures the ink between two probes, applies the
checks to what it measured, and writes a report. The thresholds of the checks are constants of the
module.
-/

namespace InkGauge.Probe

open Number

/-- The name of the module. -/
def moduleName : String := "__ink_profiling"

/-- Keeps the line below it only in a build that is to be profiled. -/
def profiledOnly : String := "#[cfg(feature = \"ink-profiling\")]"

/-- Keeps the line below it only in a build that is not to be profiled. -/
def unprofiledOnly : String := "#[cfg(not(feature = \"ink-profiling\"))]"

/-- A block between braces. -/
def braces (header : String) (body : List Code) : Code := .block header "\x7d" body

def lineCodes (ls : List String) : List Code := ls.map .line

/-- Pieces of code with a blank line between any two. -/
def spaced (parts : List (List Code)) : List Code := [Code.blank].intercalate parts

def constants (t : Thresholds) : List Code :=
  [("STORAGE_READ_BASE", t.storageRead),
    ("STORAGE_WRITE_BASE", t.storageWrite),
    ("MSG_SENDER_BASE", t.msgSender),
    ("DEFAULT_BASE", t.fallback),
    ("TOLERANCE", t.tolerance),
    ("PER_BYTE", t.perByte),
    ("SIZED_MIN_TOLERANCE", t.sizedMinTolerance),
    ("SIZED_TOLERANCE_DIVISOR", t.sizedToleranceDivisor)].map
    fun (name, value) => .line ("const " ++ name ++ ": u64 = " ++ intText value ++ ";")

def imports : List Code := lineCodes [
  "use std::collections::BTreeMap;",
  "use std::string::String;",
  "use std::sync::\x7bMutex, MutexGuard\x7d;",
  "use std::vec::Vec;"]

def probeDataType : List Code := [
  .line "#[derive(Clone, Debug)]",
  braces "pub struct ProbeData" (lineCodes [
    "pub probe_id: u32,",
    "pub ink_before: u64,",
    "pub ink_after: u64,",
    "pub count: u64,",
    "pub return_data_size: Option<usize>,",
    "pub operation_type: Option<String>,"])]

def bugType : List Code := [
  .line "#[derive(Clone, Debug)]",
  braces "pub struct DryNibBug" (lineCodes [
    "pub probe_id: u32,",
    "pub operation: String,",
    "pub ink_charged: u64,",
    "pub actual_return_size: usize,",
    "pub expected_overhead: u64,",
    "pub overcharge_amount: u64,"])]

def stateType : List Code := [
  braces "struct TrackerState" (lineCodes [
    "probes: BTreeMap<u32, ProbeData>,",
    "bugs: Vec<DryNibBug>,",
    "start_ink: u64,"])]

def trackerType : List Code := [
  .doc "Measurement context shared by every probe of one process.",
  braces "pub struct InkTracker" (lineCodes ["state: Mutex<Option<TrackerState>>,"])]

def recordMethod : List Code := [
  braces ("fn record(&self, probe_id: u32, ink_before: u64, ink_after: u64, "
      ++ "return_size: Option<usize>, operation_type: Option<&str>)") [
    .line "let consumed = ink_before.saturating_sub(ink_after);",
    .block "let bug = match (operation_type, return_size)" "\x7d;" (lineCodes [
      "(Some(op), Some(size)) => check_dry_nib_with_size(probe_id, op, consumed, size),",
      "(Some(op), None) if should_check(op) => check_dry_nib(probe_id, op, consumed),",
      "_ => None,"]),
    .line "let mut guard = self.lock();",
    braces "if let Some(state) = guard.as_mut()" [
      .block "let data = state.probes.entry(probe_id).or_insert_with(|| ProbeData"
        "\x7d);" (lineCodes [
        "probe_id,",
        "ink_before,",
        "ink_after,",
        "count: 0,",
        "return_data_size: None,",
        "operation_type: operation_type.map(String::from),"]),
      .line "data.ink_before = ink_before;",
      .line "data.ink_after = ink_after;",
      .line "data.count += 1;",
      braces "if return_size.is_some()" [.line "data.return_data_size = return_size;"],
      braces "if let Some(bug) = bug" [.line "state.bugs.push(bug);"]]]]

def writeProbe : List Code := [
  .line "report.push_str(&format!(",
  .inner (lineCodes [
    "\"Probe #\x7b\x7d (\x7b\x7d): \x7b\x7d ink consumed (before=\x7b\x7d, after=\x7b\x7d)\",",
    "id,",
    "data.operation_type.as_deref().unwrap_or(\"?\"),",
    "data.ink_before.saturating_sub(data.ink_after),",
    "data.ink_before,",
    "data.ink_after,"]),
  .line "));",
  braces "if let Some(size) = data.return_data_size" [
    .line "report.push_str(&format!(\" [return size=\x7b\x7d bytes]\", size));"],
  .line "report.push('\\n');"]

def writeBug : List Code := [
  .block "let pct = if bug.expected_overhead > 0" "\x7d else \x7b 0.0 \x7d;" [
    .line "bug.overcharge_amount as f64 / bug.expected_overhead as f64 * 100.0"],
  .line "report.push_str(&format!(",
  .inner (lineCodes [
    "\"\\u\x7b1F41B\x7d Probe \x7b\x7d: \x7b\x7d\\n   Charged:   \x7b\x7d ink\\n"
      ++ "   Expected:  \x7b\x7d ink\\n"
      ++ "   Overcharge: \x7b\x7d ink (\x7b:.1\x7d%)\\n   Return size: \x7b\x7d bytes\\n\\n\",",
    "bug.probe_id, bug.operation, bug.ink_charged, bug.expected_overhead,",
    "bug.overcharge_amount, pct, bug.actual_return_size,"]),
  .line "));"]

def dumpMethod : List Code := [
  braces "pub fn dump_report(&self) -> String" [
    .line "let now = read_ink_counter();",
    .line "let guard = self.lock();",
    .block "let state = match guard.as_ref()" "\x7d;" (lineCodes [
      "Some(state) => state,",
      "None => return String::from(\"\x7b\x7d\"),"]),
    .line "let mut report = String::new();",
    .line ("report.push_str(&format!(\"Total ink used: ~\x7b\x7d (start → current)\\n\\n\", "
      ++ "state.start_ink.saturating_sub(now)));"),
    .line "report.push_str(\"Probe measurements:\\n\");",
    braces "for (id, data) in state.probes.iter()" writeProbe,
    braces "if !state.bugs.is_empty()" [
      .line "report.push_str(\"\\n=== DRY NIB OVERCHARGE BUGS DETECTED ===\\n\");",
      .line ("report.push_str(\"These are cases where real ink used >> "
        ++ "expected fair cost\\n\");"),
      .line ("report.push_str(\"(likely buffer padding / allocation waste "
        ++ "on small returns)\\n\\n\");"),
      braces "for bug in state.bugs.iter()" writeBug],
    .line "report"]]

def trackerMethods : List Code := [
  braces "impl InkTracker" (spaced [
    [braces "pub const fn new() -> Self" [.line "InkTracker \x7b state: Mutex::new(None) \x7d"]],
    [braces "fn lock(&self) -> MutexGuard<'_, Option<TrackerState>>" [
      braces "match self.state.lock()" (lineCodes [
        "Ok(guard) => guard,",
        "Err(poisoned) => poisoned.into_inner(),"])]],
    [.doc "Start a new session, discarding earlier measurements.",
      braces "pub fn init(&self)" (lineCodes [
        "let start_ink = read_ink_counter();",
        "*self.lock() = Some(TrackerState \x7b probes: BTreeMap::new(), bugs: Vec::new(), "
          ++ "start_ink \x7d);"])],
    [braces "pub fn record_before(&self, _probe_id: u32) -> u64" [.line "read_ink_counter()"]],
    [braces ("pub fn record_after(&self, probe_id: u32, ink_before: u64, "
        ++ "operation_type: Option<&str>)") (lineCodes [
      "let ink_after = read_ink_counter();",
      "self.record(probe_id, ink_before, ink_after, None, operation_type);"])],
    [braces ("pub fn record_after_with_size(&self, probe_id: u32, ink_before: u64, "
        ++ "return_size: usize, operation_type: Option<&str>)") (lineCodes [
      "let ink_after = read_ink_counter();",
      "self.record(probe_id, ink_before, ink_after, Some(return_size), operation_type);"])],
    recordMethod,
    dumpMethod])]

/-- The end of a check: what it found. -/
def someBug (size : String) : List Code := [
  .line "Some(DryNibBug \x7b",
  .inner (lineCodes [
    "probe_id,",
    "operation: String::from(operation),",
    "ink_charged,",
    "actual_return_size: " ++ size ++ ",",
    "expected_overhead: expected,",
    "overcharge_amount: ink_charged - expected,"]),
  .line "\x7d)"]

def checks : List Code := spaced [
  [braces "fn should_check(operation: &str) -> bool" (lineCodes [
    "operation.contains(\"storage_read\") || operation.contains(\"storage_write\")",
    "    || operation.contains(\"msg_\") || operation.contains(\"block_\")"])],
  [braces ("fn check_dry_nib(probe_id: u32, operation: &str, ink_charged: u64) "
      ++ "-> Option<DryNibBug>")
    (lineCodes [
      "let expected = if operation.contains(\"storage_read\") \x7b STORAGE_READ_BASE \x7d",
      "    else if operation.contains(\"storage_write\") \x7b STORAGE_WRITE_BASE \x7d",
      "    else if operation.contains(\"msg_sender\") \x7b MSG_SENDER_BASE \x7d",
      "    else \x7b DEFAULT_BASE \x7d;"]
    ++ [braces "if ink_charged <= expected + TOLERANCE" [.line "return None;"]]
    ++ someBug "0")],
  [braces ("fn check_dry_nib_with_size(probe_id: u32, operation: &str, ink_charged: u64, "
      ++ "actual_size: usize) -> Option<DryNibBug>")
    (lineCodes [
      "let base = if operation.contains(\"storage_read\") \x7b STORAGE_READ_BASE \x7d "
        ++ "else \x7b STORAGE_WRITE_BASE \x7d;",
      "let expected = base + actual_size as u64 * PER_BYTE;",
      "let tolerance = SIZED_MIN_TOLERANCE.max(expected / SIZED_TOLERANCE_DIVISOR);"]
    ++ [braces "if ink_charged <= expected + tolerance" [.line "return None;"]]
    ++ someBug "actual_size")]]

def counters : List Code := spaced [
  [.line "#[cfg(target_arch = \"wasm32\")]",
    braces "fn read_ink_counter() -> u64" [
      .line "unsafe \x7b stylus_sdk::hostio::ink_left() \x7d"]],
  [.comment "Host builds: a counter that only goes down, like ink_left().",
    .line "#[cfg(not(target_arch = \"wasm32\"))]",
    braces "fn read_ink_counter() -> u64" (lineCodes [
      "use std::time::\x7bSystemTime, UNIX_EPOCH\x7d;",
      "let nanos = SystemTime::now().duration_since(UNIX_EPOCH)"
        ++ ".map(|d| d.as_nanos() as u64).unwrap_or(0);",
      "u64::MAX - nanos"])]]

def probeFunctions : List Code := spaced [
  [braces "pub fn init()" [.line "TRACKER.init()"]],
  [braces "pub fn dump_report() -> String" [.line "TRACKER.dump_report()"]],
  [.line "#[inline(always)]",
    braces "pub fn probe_before(id: u32) -> u64" [.line "TRACKER.record_before(id)"]],
  [.line "#[inline(always)]",
    braces "pub fn probe_after(id: u32, before: u64, operation_type: Option<&str>)" [
      .line "TRACKER.record_after(id, before, operation_type)"]],
  [.line "#[inline(always)]",
    braces ("pub fn probe_after_with_size(id: u32, before: u64, size: usize, "
        ++ "operation_type: Option<&str>)") [
      .line "TRACKER.record_after_with_size(id, before, size, operation_type)"]]]

/-- The code of the module. -/
def moduleCode (t : Thresholds) : List Code := [
  .line profiledOnly,
  .line "#[allow(dead_code)]",
  braces ("pub mod " ++ moduleName) (spaced [
    imports, constants t, probeDataType, bugType, stateType, trackerType,
    [.line "pub static TRACKER: InkTracker = InkTracker::new();"],
    trackerMethods, checks, counters, probeFunctions])]

/-- The text of the module. Like all numbers that are written, its constants can have any number of
digits. -/
def moduleText (t : Thresholds) : String := Code.render (moduleCode t)

end InkGauge.Probe

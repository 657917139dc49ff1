import FleetGateway.Gateway.Service

/-! The server over several lives of its process. A life ends wherever the process is stopped or killed;
the next one finds the files as they then are. -/

namespace FleetGateway.Gateway.Restart
open Library Library.ByteStore Library.Run Storage.Format Storage.Disk Storage.Log Storage.Recovery Routes Server Service

/-- What the process is started with, and its steps until it ends. -/
structure Life where
  setup : Setup
  labels : List Label

def Life.began (disk : Directory) (life : Life) : Setup := { life.setup with found := { disk := disk } }

def Life.server (disk : Directory) (life : Life) : TCPServer := run step (start (life.began disk)) life.labels

def Opens : Directory → List Life → Prop
  | _, [] => True
  | disk, life :: rest => (life.began disk).opened.result = .ok () ∧ Opens (life.server disk).store.disk rest

theorem Serial.append {testMode : Bool} {capacity : Nat} {recovered : List Message} {front back : List Answer}
    (first : Serial testMode capacity recovered front)
    (second : Serial testMode capacity (recovered ++ front.filterMap Answer.message) back) :
    Serial testMode capacity recovered (front ++ back) := by
  induction second with
  | none =>
    rw [List.append_nil]
    exact first
  | next answers answer _ serves ih =>
    rw [← List.append_assoc]
    refine .next _ answer ih ?_
    rw [List.filterMap_append, ← List.append_assoc]
    exact serves

end FleetGateway.Gateway.Restart

import FleetGateway.Library.Decimal

/-! `HttpResponse` and the bytes it is sent as. -/

namespace FleetGateway.Http.Response
open Library Library.ByteStore

/-- The header map is the list of its entries in the order the map is walked. -/
structure HttpResponse where
  statusCode : Int := 200
  reason : Bytes := text "OK"
  headers : List (Bytes × Bytes) := []
  body : Bytes := []
  deriving DecidableEq

/-- `std::to_string` of an integer. -/
def decimal (number : Int) : Bytes :=
  (if number < 0 then text "-" else []) ++ Decimal.padded 1 number.natAbs

theorem decimal_natCast (number : Nat) : decimal number = Decimal.padded 1 number := by
  simp [decimal]

def statesLength (header : Bytes × Bytes) : Bool :=
  header.1 = text "Content-Length" || header.1 = text "content-length"

def HttpResponse.toString (response : HttpResponse) : Bytes :=
  text "HTTP/1.1 " ++ decimal response.statusCode ++ text " " ++ response.reason ++ text "\r\n" ++
    response.headers.flatMap (fun header => header.1 ++ text ": " ++ header.2 ++ text "\r\n") ++
    (if response.headers.any statesLength then []
      else text "Content-Length: " ++ decimal response.body.length ++ text "\r\n") ++
    text "Connection: close\r\n\r\n" ++ response.body

end FleetGateway.Http.Response

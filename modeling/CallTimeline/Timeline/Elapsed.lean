import CallTimeline.Number.Places

namespace CallTimeline

/-- Microseconds up to one millisecond, milliseconds up to one second, then seconds. -/
def elapsed (microseconds : Float) : String :=
  if microseconds < 1000 then Double.twoPlaces microseconds ++ " us"
  else if microseconds < 1000000 then Double.twoPlaces (microseconds / 1000) ++ " ms"
  else Double.twoPlaces (microseconds / 1000000) ++ " s"

end CallTimeline
